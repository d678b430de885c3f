import JavaSyntax.Proofs.Grammar.Phrases
import JavaSyntax.Syntax.Lookahead

/-!
# What stands in parentheses

What a parenthesis opens depends on what stands in its group: names, parameters with their types
or the type of a cast. Each of these is a language of kinds, and each has a recognizer. Brackets
are balanced in all of them, so what a recognizer passes before a closing parenthesis is all that
stands in the group.
-/

namespace JavaSyntax

open JavaSyntax.Parser (Step)

/-! ### Balanced kinds -/

namespace IsContent

variable {ks ls content front rest more : List TokenKind} {k closer other : TokenKind}

/-- Nothing is balanced. -/
theorem nil : IsContent [] := rfl

/-- Balanced kinds in a row are balanced. -/
theorem append (h : IsContent ks) (h' : IsContent ls) : IsContent (ks ++ ls) := by
  rw [IsContent, openGroups_append, h]
  exact h'

/-- A kind that is no bracket may stand before balanced ones. -/
theorem cons (h : IsContent ks) (hopens : k.opensGroup = false) (hcloses : k.closesGroup = false) :
    IsContent (k :: ks) := by
  rw [IsContent, openGroups, hopens, hcloses]
  exact h

/-- A group does not go on behind what closes it. -/
theorem not_closed (h : IsContent ks) (hcloser : closer.closesGroup = true) :
    openGroups 0 (ks ++ closer :: ls) = none := by
  rw [openGroups_append, h, Option.bind_some, openGroups,
    TokenKind.opensGroup_of_closesGroup hcloser, hcloser]
  rfl

/-- A group ends where it is closed first. -/
theorem unique (h : IsContent content) (hcloser : closer.closesGroup = true)
    (h' : IsContent front) (hother : other.closesGroup = true)
    (heq : content ++ closer :: rest = front ++ other :: more) :
    content = front ∧ closer = other ∧ rest = more := by
  have hrest : some rest = some more := by
    rw [← Recognizer.group_paren h hcloser, heq, Recognizer.group_paren h' hother]
  obtain rfl := Option.some.inj hrest
  rw [List.append_cons, List.append_cons front] at heq
  obtain ⟨hcontent, hclosers⟩ := List.append_inj' (List.append_cancel_right heq) rfl
  exact ⟨hcontent, (List.cons.inj hclosers).1, rfl⟩

end IsContent

/-- There are no brackets in a name. -/
theorem IsName.isContent {ks : List TokenKind} (h : IsName ks) : IsContent ks := by
  induction h with
  | single => rfl
  | dotted _ ih => exact (ih.cons rfl rfl).cons rfl rfl

/-- Brackets are balanced in an annotation. -/
theorem IsAnnotation.isContent {ks : List TokenKind} (h : IsAnnotation ks) : IsContent ks := by
  cases h with
  | plain h => exact h.isContent.cons rfl rfl
  | called h hcontent hcloser =>
    exact (h.isContent.append (hcontent.group hcloser)).cons rfl rfl

/-- Brackets are balanced in annotations. -/
theorem AreAnnotations.isContent {ks : List TokenKind} (h : AreAnnotations ks) : IsContent ks := by
  induction h with
  | none => exact .nil
  | more h _ ih => exact h.isContent.append ih

/-- Empty brackets are balanced. -/
theorem isContent_emptyBrackets (n : Nat) : IsContent (emptyBrackets n) := by
  induction n with
  | zero => exact .nil
  | succ n ih =>
    have hpair : IsContent [.leftBracket, .rightBracket] := rfl
    exact hpair.append ih

/-- Brackets are balanced in whatever a type is made up of. -/
theorem TypePhrase.Derives.isContent {p : TypePhrase} {ks : List TokenKind} (h : p.Derives ks) :
    IsContent ks := by
  induction h with
  | primitive n has _ => exact has.isContent.append ((isContent_emptyBrackets n).cons rfl rfl)
  | classType n has _ _ ihfirst ihmore =>
    exact has.isContent.append (ihfirst.append (ihmore.append (isContent_emptyBrackets n)))
  | name | diamond => rfl
  | generic _ ih => exact (ih.cons rfl rfl).cons rfl rfl
  | noSegments => rfl
  | moreSegments has _ _ ihnext ihmore =>
    exact (has.isContent.append (ihnext.append ihmore)).cons rfl rfl
  | lastArgument _ ih => exact ih.append rfl
  | moreArguments _ _ ih ihs => exact ih.append (ihs.cons rfl rfl)
  | typeArgument _ ih => exact ih
  | wildcard has => exact has.isContent.append rfl
  | bounded has _ _ ih => exact has.isContent.append ((ih.cons rfl rfl).cons rfl rfl)

/-! ### Lists with separators -/

/-- Items with separators between them. -/
inductive Separated (L : List TokenKind → Prop) (sep : TokenKind) : List TokenKind → Prop
  | single {ks : List TokenKind} (h : L ks) : Separated L sep ks
  | more {ks ls : List TokenKind} (h : L ks) (hs : Separated L sep ls) :
      Separated L sep (ks ++ sep :: ls)

/-- Items are balanced together if each of them is and separators are no brackets. -/
theorem Separated.isContent {L : List TokenKind → Prop} {sep : TokenKind} {ks : List TokenKind}
    (h : Separated L sep ks) (hL : ∀ {ks}, L ks → IsContent ks) (hopens : sep.opensGroup = false)
    (hcloses : sep.closesGroup = false) : IsContent ks := by
  induction h with
  | single h => exact hL h
  | more h _ ih => exact (hL h).append (ih.cons hopens hcloses)

namespace Recognizer

variable {item : Recognizer} {L : List TokenKind → Prop} {sep : TokenKind}
  {ks rest front content : List TokenKind}

/-- Passes a separator, or stops where there is none. -/
def separator (sep : TokenKind) : RecognizerStep
  | [] => .done (some [])
  | k :: ks => if k = sep then .again ks else .done (some (k :: ks))

/-- Passes an item, and goes on behind a separator. -/
def separatedStep (item : Recognizer) (sep : TokenKind) : RecognizerStep := fun ks =>
  match item ks with
  | none => .done none
  | some rest => separator sep rest

/-- Passes items with separators between them. -/
def separated (item : Recognizer) (sep : TokenKind) : Recognizer :=
  repeated (separatedStep item sep)

/-- Passes more items behind the first one. -/
def more (item : Recognizer) (sep : TokenKind) : Recognizer := fun ks =>
  match separator sep ks with
  | .again rest => separated item sep rest
  | .done result => result

/-- Behind a separator the items go on. -/
theorem separator_cons (sep : TokenKind) (ks : List TokenKind) :
    separator sep (sep :: ks) = .again ks := if_pos rfl

/-- Without a separator the items end. -/
theorem separator_of_head? (h : ks.head? ≠ some sep) : separator sep ks = .done (some ks) := by
  cases ks with
  | nil => rfl
  | cons k ks => exact if_neg fun hk => h (congrArg some hk)

/-- A round over items passes a separator. -/
theorem shortens_separatedStep (h : Shrinks item) : Shortens (separatedStep item sep) := by
  intro ks rest hstep
  unfold separatedStep at hstep
  split at hstep
  · cases hstep
  · rename_i behind hitem
    have hle := h hitem
    by_cases hsep : behind.head? = some sep
    · obtain ⟨ls, rfl⟩ := List.head?_eq_some_iff.mp hsep
      rw [separator_cons] at hstep
      cases hstep
      exact hle
    · rw [separator_of_head? hsep] at hstep
      cases hstep

/-- A list of items is an item with more of them behind it. -/
theorem separated_eq (h : Shrinks item) (ks : List TokenKind) :
    separated item sep ks = (item ks).bind (more item sep) := by
  rw [separated, repeated_eq (shortens_separatedStep h), separatedStep]
  cases item ks with
  | none => rfl
  | some rest => rfl

/-- Behind a separator more items come. -/
theorem more_cons (item : Recognizer) (sep : TokenKind) (ks : List TokenKind) :
    more item sep (sep :: ks) = separated item sep ks := by
  rw [more, separator_cons]

/-- Without a separator there are no more items. -/
theorem more_of_head? (h : ks.head? ≠ some sep) : more item sep ks = some ks := by
  rw [more, separator_of_head? h]

/-- What is passed as items belongs to the language of them. -/
theorem sound_separated (h : Sound item L) : Sound (separated item sep) (Separated L sep) := by
  intro ks rest hrun
  refine repeated_induction (P := fun ks rest => ∃ front, ks = front ++ rest ∧
    Separated L sep front) (shortens_separatedStep h.shrinks) hrun ?_ ?_
  · rintro ks next rest hstep ⟨front, rfl, hfront⟩
    unfold separatedStep at hstep
    split at hstep
    · cases hstep
    · rename_i behind hitem
      obtain ⟨first, rfl, hfirst⟩ := h hitem
      by_cases hsep : behind.head? = some sep
      · obtain ⟨ls, rfl⟩ := List.head?_eq_some_iff.mp hsep
        rw [separator_cons] at hstep
        cases hstep
        exact ⟨first ++ sep :: front, by simp, .more hfirst hfront⟩
      · rw [separator_of_head? hsep] at hstep
        cases hstep
  · intro ks rest hstep
    unfold separatedStep at hstep
    split at hstep
    · cases hstep
    · rename_i behind hitem
      obtain ⟨first, rfl, hfirst⟩ := h hitem
      by_cases hsep : behind.head? = some sep
      · obtain ⟨ls, rfl⟩ := List.head?_eq_some_iff.mp hsep
        rw [separator_cons] at hstep
        cases hstep
      · rw [separator_of_head? hsep] at hstep
        cases hstep
        exact ⟨first, rfl, .single hfirst⟩

/-- A recognizer passes what belongs to a language before the end of a group, and nothing else. In
the language, brackets are balanced. -/
structure Fills (r : Recognizer) (L : List TokenKind → Prop) : Prop where
  sound : Sound r L
  isContent : ∀ {ks}, L ks → IsContent ks
  append : ∀ {front}, L front → ∀ rest,
    r (front ++ .rightParen :: rest) = some (.rightParen :: rest)

/-- What belongs to the language can be found out by passing it. -/
theorem Fills.iff {r : Recognizer} (h : Fills r L) :
    L ks ↔ r (ks ++ [.rightParen]) = some [.rightParen] := by
  refine ⟨fun hL => h.append hL [], fun hpassed => ?_⟩
  obtain ⟨front, heq, hfront⟩ := h.sound hpassed
  rwa [List.append_cancel_right heq]

/-- A recognizer passes a group as a whole, if it passes it up to a closing parenthesis. -/
theorem Fills.passes_iff {r : Recognizer} {closer : TokenKind} (h : Fills r L)
    (hcontent : IsContent content) (hcloser : closer.closesGroup = true) :
    (∃ more, r (content ++ closer :: rest) = some (.rightParen :: more)) ↔
      closer = .rightParen ∧ L content := by
  constructor
  · rintro ⟨more, hpassed⟩
    obtain ⟨front, heq, hfront⟩ := h.sound hpassed
    obtain ⟨rfl, rfl, rfl⟩ := hcontent.unique hcloser (h.isContent hfront) rfl heq
    exact ⟨rfl, hfront⟩
  · rintro ⟨rfl, hL⟩
    exact ⟨rest, h.append hL rest⟩

/-- Items are recognized in a group if each is passed before a separator and before the closing
parenthesis. -/
theorem fills_separated (hsound : Sound item L) (hcontent : ∀ {ks}, L ks → IsContent ks)
    (hopens : sep.opensGroup = false) (hcloses : sep.closesGroup = false)
    (happend : ∀ {front k}, L front → (k = sep ∨ k = .rightParen) → ∀ rest,
      item (front ++ k :: rest) = some (k :: rest)) :
    Fills (separated item sep) (Separated L sep) where
  sound := sound_separated hsound
  isContent h := h.isContent hcontent hopens hcloses
  append h rest := by
    have hparen : sep ≠ .rightParen := by
      rintro rfl
      cases hcloses
    induction h with
    | single h =>
      rw [separated_eq hsound.shrinks, happend h (.inr rfl), Option.bind_some, more_of_head?]
      simpa using hparen.symm
    | more h _ ih =>
      rw [List.append_assoc, List.cons_append, separated_eq hsound.shrinks, happend h (.inl rfl),
        Option.bind_some, more_cons, ih]

end Recognizer

/-! ### Names -/

/-- So many names with commas between them. -/
def nameList : Nat → List TokenKind
  | 0 => []
  | 1 => [.identifier]
  | n + 2 => .identifier :: .comma :: nameList (n + 1)

/-- Whether kinds are names with commas between them, and at least so many. -/
def AreNames (least : Nat) (ks : List TokenKind) : Prop := ∃ n, least ≤ n ∧ ks = nameList n

/-- There are as many kinds as names, at least. -/
theorem le_length_nameList (n : Nat) : n ≤ (nameList n).length := by
  fun_induction nameList n with
  | case1 | case2 => exact Nat.le_refl _
  | case3 n ih =>
    simp only [List.length_cons]
    omega

instance (least : Nat) (ks : List TokenKind) : Decidable (AreNames least ks) :=
  decidable_of_iff (∃ n < ks.length + 1, least ≤ n ∧ ks = nameList n)
    ⟨fun ⟨n, _, h⟩ => ⟨n, h⟩, fun ⟨n, hn, h⟩ =>
      ⟨n, Nat.lt_succ_of_le (h ▸ le_length_nameList n), hn, h⟩⟩

/-- There are no brackets in a list of names. -/
theorem isContent_nameList (n : Nat) : IsContent (nameList n) := by
  fun_induction nameList n with
  | case1 | case2 => rfl
  | case3 n ih => exact (ih.cons rfl rfl).cons rfl rfl

namespace Recognizer

/-- Passes names with commas between them and counts them. -/
def names : List TokenKind → Option (Nat × List TokenKind)
  | .identifier :: .comma :: ks => (names ks).map fun (n, rest) => (n + 1, rest)
  | .identifier :: ks => some (1, ks)
  | _ => none

/-- A list of names starts with a name. -/
theorem names_eq_none {ks : List TokenKind} (h : ∀ rest, ks ≠ .identifier :: rest) :
    names ks = none := by
  unfold names
  split
  · exact absurd rfl (h _)
  · exact absurd rfl (h _)
  · rfl

/-- What is passed as names are names, as many as are counted. -/
theorem exists_names {ks rest : List TokenKind} {n : Nat} (h : names ks = some (n, rest)) :
    n ≠ 0 ∧ ks = nameList n ++ rest := by
  fun_induction names ks generalizing n with
  | case1 ks ih =>
    obtain ⟨⟨m, rest'⟩, hnames, heq⟩ := Option.map_eq_some_iff.mp h
    cases heq
    obtain ⟨hm, rfl⟩ := ih hnames
    obtain ⟨m, rfl⟩ := Nat.exists_eq_succ_of_ne_zero hm
    exact ⟨Nat.succ_ne_zero _, rfl⟩
  | case2 ks _ =>
    cases h
    exact ⟨Nat.one_ne_zero, rfl⟩
  | case3 => cases h

/-- Names are passed before a closing parenthesis. -/
theorem names_append {n : Nat} (hn : n ≠ 0) (rest : List TokenKind) :
    names (nameList n ++ .rightParen :: rest) = some (n, .rightParen :: rest) := by
  fun_induction nameList n with
  | case1 => exact absurd rfl hn
  | case2 => rfl
  | case3 n ih =>
    rw [List.cons_append, List.cons_append, names, ih (Nat.succ_ne_zero n)]
    rfl

/-- Names are passed up to a closing parenthesis, if they are all that stands in a group. -/
theorem names_iff {content rest : List TokenKind} {closer : TokenKind} {n : Nat}
    (hcontent : IsContent content) (hcloser : closer.closesGroup = true) :
    (∃ more, names (content ++ closer :: rest) = some (n, .rightParen :: more)) ↔
      closer = .rightParen ∧ n ≠ 0 ∧ content = nameList n := by
  constructor
  · rintro ⟨more, hnames⟩
    obtain ⟨hn, heq⟩ := exists_names hnames
    obtain ⟨rfl, rfl, rfl⟩ := hcontent.unique hcloser (isContent_nameList n) rfl heq
    exact ⟨rfl, hn, rfl⟩
  · rintro ⟨rfl, hn, rfl⟩
    exact ⟨rest, names_append hn rest⟩

end Recognizer

/-! ### Parameters -/

/-- Any number of `final` and annotations. -/
inductive AreModifiers : List TokenKind → Prop
  | none : AreModifiers []
  | final {ks : List TokenKind} (h : AreModifiers ks) : AreModifiers (.keyword .final :: ks)
  | annotationUse {ks ls : List TokenKind} (h : IsAnnotation ks) (hs : AreModifiers ls) :
      AreModifiers (ks ++ ls)

/-- A name behind a type, perhaps with an ellipsis before it and empty brackets behind it. -/
inductive IsDeclared : List TokenKind → Prop
  | single (n : Nat) : IsDeclared (.identifier :: emptyBrackets n)
  | variadic (n : Nat) : IsDeclared (.ellipsis :: .identifier :: emptyBrackets n)

/-- A parameter with a type. Modifiers with a broken annotation are not refused, so an `@` before
something else than a name may stray in behind them. -/
inductive IsParameter : List TokenKind → Prop
  | typed {ms ts vs : List TokenKind} (hms : AreModifiers ms) (hts : IsType ts)
      (hvs : IsDeclared vs) : IsParameter (ms ++ (ts ++ vs))
  | stray {ms ts vs : List TokenKind} (hms : AreModifiers ms) (hts : IsType ts)
      (hname : ts.head? ≠ some .identifier) (hvs : IsDeclared vs) :
      IsParameter (ms ++ .at :: (ts ++ vs))

/-- Parameters with commas between them. -/
abbrev AreParameters : List TokenKind → Prop := Separated IsParameter .comma

/-- Brackets are balanced in modifiers. -/
theorem AreModifiers.isContent {ks : List TokenKind} (h : AreModifiers ks) : IsContent ks := by
  induction h with
  | none => exact .nil
  | final _ ih => exact ih.cons rfl rfl
  | annotationUse h _ ih => exact h.isContent.append ih

/-- Annotations are modifiers. -/
theorem AreAnnotations.areModifiers {ks : List TokenKind} (h : AreAnnotations ks) :
    AreModifiers ks := by
  induction h with
  | none => exact .none
  | more h _ ih => exact .annotationUse h ih

/-- Brackets are balanced in a name with empty ones behind it. -/
theorem IsDeclared.isContent {ks : List TokenKind} (h : IsDeclared ks) : IsContent ks := by
  cases h with
  | single n => exact (isContent_emptyBrackets n).cons rfl rfl
  | variadic n => exact ((isContent_emptyBrackets n).cons rfl rfl).cons rfl rfl

/-- Brackets are balanced in a parameter. -/
theorem IsParameter.isContent {ks : List TokenKind} (h : IsParameter ks) : IsContent ks := by
  cases h with
  | typed hms hts hvs => exact hms.isContent.append (hts.isContent.append hvs.isContent)
  | stray hms hts _ hvs =>
    exact hms.isContent.append ((hts.isContent.append hvs.isContent).cons rfl rfl)

/-- Behind its annotations a type starts with a name or with the keyword of a primitive type. -/
theorem IsType.exists_bare {ks : List TokenKind} (h : IsType ks) :
    ∃ as k ls, ks = as ++ k :: ls ∧ AreAnnotations as ∧ IsType (k :: ls) ∧
      (k = .identifier ∨
        ∃ keyword : Keyword, keyword.isPrimitiveType = true ∧ k = .keyword keyword) := by
  cases h with
  | @primitive as keyword n has hkeyword =>
    have hbare : IsType ([] ++ .keyword keyword :: emptyBrackets n) := .primitive n .none hkeyword
    exact ⟨as, _, _, rfl, has, hbare, .inr ⟨keyword, hkeyword, rfl⟩⟩
  | @classType as first more n has hfirst hmore =>
    obtain ⟨ls, rfl⟩ := Recognizer.exists_segment_eq hfirst
    have hbare : IsType ([] ++ (.identifier :: ls ++ (more ++ emptyBrackets n))) :=
      .classType n .none hfirst hmore
    exact ⟨as, _, _, rfl, has, hbare, .inl rfl⟩

namespace Recognizer

variable {ks rest front : List TokenKind}

/-- Passes a modifier. A broken annotation ends them. -/
def modifierStep : RecognizerStep
  | .keyword .final :: ks => .again ks
  | ks =>
    if atAnnotation ks then
      match annotationUse ks.tail with
      | some rest => .again rest
      | none => .done (some (broken ks.tail))
    else .done (some ks)

/-- Passes `final` and annotations, and what is in order of a broken annotation behind them. -/
def modifiers : Recognizer := repeated modifierStep

/-- Passes a name with empty brackets behind it. -/
def arrayName : Recognizer
  | .identifier :: ks => some (dimensions ks)
  | _ => none

/-- Passes a name behind a type. -/
def declared : Recognizer
  | .ellipsis :: ks => arrayName ks
  | ks => arrayName ks

/-- Passes a parameter with a type. -/
def parameter (ks : List TokenKind) : Option (List TokenKind) :=
  (modifiers ks).bind fun behind => (type behind).bind declared

/-- Passes parameters with commas between them. -/
def parameters : Recognizer := separated parameter .comma

/-- Where no `final` comes next, a modifier is an annotation. -/
theorem modifierStep_of_not_final (h : ∀ ls, ks ≠ .keyword .final :: ls) :
    modifierStep ks =
      if atAnnotation ks then
        match annotationUse ks.tail with
        | some rest => .again rest
        | none => .done (some (broken ks.tail))
      else .done (some ks) := by
  unfold modifierStep
  split
  · exact absurd rfl (h _)
  · rfl

/-- A round over modifiers passes one. -/
theorem shortens_modifierStep : Shortens modifierStep := by
  intro ks rest h
  unfold modifierStep at h
  split at h
  · cases h
    exact Nat.lt_succ_self _
  split at h
  · rename_i hat
    obtain ⟨ls, rfl⟩ := exists_eq_at hat
    split at h
    · rename_i hrest
      cases h
      exact Nat.lt_succ_of_le (shrinks_annotationUse hrest)
    · cases h
  · cases h

/-- What is passed are modifiers, and then perhaps an annotation that is broken. -/
theorem exists_modifiers (h : modifiers ks = some rest) :
    ∃ ms behind, ks = ms ++ behind ∧ AreModifiers ms ∧
      (behind = rest ∨ ∃ ls, behind = .at :: ls ∧ annotationUse ls = none ∧ rest = broken ls) := by
  refine repeated_induction (P := fun ks rest => ∃ ms behind, ks = ms ++ behind ∧
    AreModifiers ms ∧ (behind = rest ∨
      ∃ ls, behind = .at :: ls ∧ annotationUse ls = none ∧ rest = broken ls))
    shortens_modifierStep h ?_ ?_
  · rintro ks next rest hstep ⟨ms, behind, rfl, hms, hbehind⟩
    unfold modifierStep at hstep
    split at hstep
    · cases hstep
      exact ⟨.keyword .final :: ms, behind, rfl, .final hms, hbehind⟩
    split at hstep
    · rename_i hat
      obtain ⟨ls, rfl⟩ := exists_eq_at hat
      split at hstep
      · rename_i hannotation
        cases hstep
        obtain ⟨as, htail, has⟩ := exists_annotationUse hannotation
        obtain rfl : ls = _ := htail
        exact ⟨.at :: as ++ ms, behind, by simp, .annotationUse has hms, hbehind⟩
      · cases hstep
    · cases hstep
  · intro ks rest hstep
    unfold modifierStep at hstep
    split at hstep
    · cases hstep
    split at hstep
    · rename_i hat
      obtain ⟨ls, rfl⟩ := exists_eq_at hat
      split at hstep
      · cases hstep
      · rename_i hannotation
        cases hstep
        exact ⟨[], _, rfl, .none, .inr ⟨ls, rfl, hannotation, rfl⟩⟩
    · cases hstep
      exact ⟨[], _, rfl, .none, .inl rfl⟩

/-- Modifiers are passed, and then what comes behind them is looked at. -/
theorem modifiers_append {ms : List TokenKind} (h : AreModifiers ms) (hrest : EndsAnnotation rest) :
    modifiers (ms ++ rest) = modifiers rest := by
  induction h with
  | none => rfl
  | final _ ih =>
    rw [modifiers, List.cons_append, repeated_eq shortens_modifierStep]
    exact ih
  | @annotationUse as ls h hs ih =>
    have hends : EndsAnnotation (ls ++ rest) := by
      cases hs with
      | none => exact hrest
      | final _ => exact ⟨nofun, nofun⟩
      | annotationUse h _ => cases h <;> exact ⟨nofun, nofun⟩
    obtain ⟨hat, hannotation⟩ := annotationUse_append h hends
    have hfinal : ∀ us, as ++ (ls ++ rest) ≠ .keyword .final :: us := by
      cases h <;> exact nofun
    rw [modifiers, List.append_assoc, repeated_eq shortens_modifierStep,
      modifierStep_of_not_final hfinal, hat, hannotation]
    exact ih

/-- Modifiers end before a type, with its annotations among them. -/
theorem modifiers_type {ts : List TokenKind} (h : IsType ts) (rest : List TokenKind) :
    ∃ ls, modifiers (ts ++ rest) = some (ls ++ rest) ∧ IsType ls := by
  obtain ⟨as, k, ls, rfl, has, hls, hk⟩ := h.exists_bare
  have hends : EndsAnnotation (k :: (ls ++ rest)) := by
    rcases hk with rfl | ⟨keyword, -, rfl⟩ <;> exact ⟨nofun, nofun⟩
  refine ⟨k :: ls, ?_, hls⟩
  rw [List.append_assoc, List.cons_append, modifiers_append has.areModifiers hends]
  refine repeated_of_done ?_
  rw [modifierStep_of_not_final]
  · rcases hk with rfl | ⟨keyword, -, rfl⟩ <;> rfl
  · rintro us heq
    obtain ⟨rfl, -⟩ := List.cons.inj heq
    rcases hk with hk | ⟨keyword, hprimitive, hk⟩
    · cases hk
    · cases hk
      cases hprimitive

/-- An `@` before something else than a name ends the modifiers, and is passed. -/
theorem modifiers_stray {ls : List TokenKind} (hname : name ls = none)
    (hinterface : ls.head? ≠ some (.keyword .interface)) :
    modifiers (.at :: ls) = some ls := by
  have hat : atAnnotation (.at :: ls) = true := by
    unfold atAnnotation
    split
    · rename_i heq
      obtain ⟨-, rfl⟩ := List.cons.inj heq
      exact absurd rfl hinterface
    · rfl
    · rename_i hother
      exact absurd rfl (hother ls)
  have hfinal : ∀ us, TokenKind.at :: ls ≠ .keyword .final :: us := nofun
  refine repeated_of_done ?_
  rw [modifierStep_of_not_final hfinal, hat, List.tail_cons, annotationUse, hname]
  change Step.done (some (broken ls)) = _
  rw [broken, hname]

/-- What is passed as a name is one with empty brackets behind it. -/
theorem exists_arrayName (h : arrayName ks = some rest) :
    ∃ n, ks = .identifier :: emptyBrackets n ++ rest := by
  unfold arrayName at h
  split at h
  · rename_i ls
    cases h
    obtain ⟨n, hn⟩ := exists_dimensions ls
    exact ⟨n, by rw [List.cons_append, ← hn]⟩
  · cases h

/-- What is passed behind a type is a name that is declared. -/
theorem sound_declared : Sound declared IsDeclared := by
  intro ks rest h
  unfold declared at h
  split at h
  · obtain ⟨n, rfl⟩ := exists_arrayName h
    exact ⟨.ellipsis :: .identifier :: emptyBrackets n, rfl, .variadic n⟩
  · obtain ⟨n, rfl⟩ := exists_arrayName h
    exact ⟨.identifier :: emptyBrackets n, rfl, .single n⟩

/-- A name is passed with its brackets if no bracket comes behind them. -/
theorem declared_append (h : IsDeclared front) (hrest : rest.head? ≠ some .leftBracket) :
    declared (front ++ rest) = some rest := by
  cases h with
  | single n => exact congrArg some (dimensions_append n hrest)
  | variadic n => exact congrArg some (dimensions_append n hrest)

/-- A type ends before the name that it declares. -/
theorem stopsType_of_isDeclared {vs : List TokenKind} (h : IsDeclared vs) :
    ∀ k, (vs ++ rest).head? = some k → k.stopsType = true := by
  rintro k hk
  cases h <;> cases hk <;> rfl

/-- What is passed as a parameter is one. -/
theorem sound_parameter : Sound parameter IsParameter := by
  intro ks rest h
  obtain ⟨behind, hmodifiers, h⟩ := Option.bind_eq_some_iff.mp h
  obtain ⟨after, htype, hdeclared⟩ := Option.bind_eq_some_iff.mp h
  obtain ⟨ts, rfl, hts⟩ := sound_type htype
  obtain ⟨vs, rfl, hvs⟩ := sound_declared hdeclared
  obtain ⟨ms, behind, rfl, hms, rfl | ⟨ls, rfl, hannotation, hbroken⟩⟩ :=
    exists_modifiers hmodifiers
  · exact ⟨ms ++ (ts ++ vs), by simp, .typed hms hts hvs⟩
  · -- No type is left of an annotation that has a name.
    obtain ⟨k, us, hcons, -⟩ := exists_cons_type hts
    have hname : name ls = none := by
      cases hname : name ls with
      | none => rfl
      | some rest =>
        rw [broken, hname, hcons] at hbroken
        cases hbroken
    rw [broken, hname] at hbroken
    subst hbroken
    refine ⟨ms ++ .at :: (ts ++ vs), by simp, .stray hms hts ?_ hvs⟩
    intro hhead
    obtain ⟨us, rfl⟩ := List.head?_eq_some_iff.mp hhead
    cases hname

/-- A parameter is passed if no bracket comes behind it. -/
theorem parameter_append (h : IsParameter front) (hrest : rest.head? ≠ some .leftBracket) :
    parameter (front ++ rest) = some rest := by
  cases h with
  | @typed ms ts vs hms hts hvs =>
    obtain ⟨ls, hmodifiers, hls⟩ := modifiers_type hts (vs ++ rest)
    have hends : EndsAnnotation (ts ++ (vs ++ rest)) := by
      obtain ⟨as, k, us, rfl, has, -, hk⟩ := hts.exists_bare
      cases has with
      | none => rcases hk with rfl | ⟨keyword, -, rfl⟩ <;> exact ⟨nofun, nofun⟩
      | more h _ => cases h <;> exact ⟨nofun, nofun⟩
    rw [parameter, List.append_assoc, List.append_assoc, modifiers_append hms hends, hmodifiers,
      Option.bind_some, type_append hls (stopsType_of_isDeclared hvs), Option.bind_some,
      declared_append hvs hrest]
  | @stray ms ts vs hms hts hname hvs =>
    have hstart : name (ts ++ (vs ++ rest)) = none ∧
        (ts ++ (vs ++ rest)).head? ≠ some (.keyword .interface) := by
      obtain ⟨as, k, us, rfl, has, -, hk⟩ := hts.exists_bare
      cases has with
      | none =>
        rcases hk with rfl | ⟨keyword, hkeyword, rfl⟩
        · exact absurd rfl hname
        · refine ⟨rfl, ?_⟩
          rintro ⟨⟩
          cases hkeyword
      | more h _ => cases h <;> exact ⟨rfl, nofun⟩
    have hends : EndsAnnotation (.at :: (ts ++ (vs ++ rest))) := ⟨nofun, nofun⟩
    rw [parameter, List.append_assoc, List.cons_append, List.append_assoc,
      modifiers_append hms hends, modifiers_stray hstart.1 hstart.2, Option.bind_some,
      type_append hts (stopsType_of_isDeclared hvs), Option.bind_some, declared_append hvs hrest]

/-- Parameters in a group are recognized as such. -/
theorem fills_parameters : Fills parameters AreParameters :=
  fills_separated sound_parameter IsParameter.isContent rfl rfl fun h hk _ =>
    parameter_append h (by rcases hk with rfl | rfl <;> exact nofun)

end Recognizer

instance (ks : List TokenKind) : Decidable (AreParameters ks) :=
  decidable_of_iff _ Recognizer.fills_parameters.iff.symm

/-! ### Types of casts -/

/-- Types with `&` between them. -/
abbrev IsIntersection : List TokenKind → Prop := Separated IsType .amp

namespace Recognizer

variable {ks rest content : List TokenKind}

/-- Passes types with `&` between them. -/
def intersection : Recognizer := separated type .amp

/-- Whether the keyword of a primitive type comes next. -/
def atPrimitive : List TokenKind → Bool
  | .keyword keyword :: _ => keyword.isPrimitiveType
  | _ => false

/-- Where a primitive type comes next, its keyword does. -/
theorem exists_eq_primitive (h : atPrimitive ks = true) :
    ∃ keyword ls, ks = .keyword keyword :: ls ∧ keyword.isPrimitiveType = true := by
  unfold atPrimitive at h
  split at h
  · exact ⟨_, _, rfl, h⟩
  · cases h

/-- Passes the type of a cast, and says whether it is a single primitive type. -/
def castType (ks : List TokenKind) : Option (Bool × List TokenKind) :=
  (annotations ks).bind fun behind => (type behind).bind fun first =>
    (more type .amp first).map fun rest => (atPrimitive behind && first.head? != some .amp, rest)

/-- The types of an intersection in a group are recognized as such. -/
theorem fills_intersection : Fills intersection IsIntersection :=
  fills_separated sound_type TypePhrase.Derives.isContent rfl rfl fun h hk _ =>
    type_append h fun k hhead => by
      cases hhead
      rcases hk with rfl | rfl <;> rfl

/-- A type may be passed behind its annotations. -/
theorem annotations_bind_type (ks : List TokenKind) : (annotations ks).bind type = type ks := by
  rw [type_eq ks]
  cases hannotations : annotations ks with
  | none => rfl
  | some behind =>
    rw [Option.bind_some, Option.bind_some, type_eq behind,
      annotations_of_not_at (atAnnotation_of_annotations hannotations), Option.bind_some]

/-- What is passed as the type of a cast is an intersection. -/
theorem map_castType (ks : List TokenKind) : (castType ks).map Prod.snd = intersection ks := by
  rw [intersection, separated_eq shrinks_type, ← annotations_bind_type, castType]
  cases annotations ks with
  | none => rfl
  | some behind =>
    rw [Option.bind_some, Option.bind_some]
    cases type behind with
    | none => rfl
    | some first =>
      rw [Option.bind_some, Option.bind_some, Option.map_map]
      exact Option.map_id'

/-- Behind the keyword of a primitive type only dimensions are passed. -/
theorem type_primitive {keyword : Keyword} (h : keyword.isPrimitiveType = true)
    (ks : List TokenKind) : type (.keyword keyword :: ks) = some (dimensions ks) := by
  rw [type_eq, annotations_of_not_at rfl, Option.bind_some, element, if_pos h, Option.map_some]

/-- The type of a cast is said to be primitive if and only if it is a primitive type. -/
theorem castType_primitive_iff {primitive : Bool}
    (h : castType (content ++ .rightParen :: rest) = some (primitive, .rightParen :: rest)) :
    primitive = true ↔ IsPrimitiveType content := by
  obtain ⟨behind, hannotations, h⟩ := Option.bind_eq_some_iff.mp h
  obtain ⟨first, htype, h⟩ := Option.bind_eq_some_iff.mp h
  obtain ⟨last, hmore, heq⟩ := Option.map_eq_some_iff.mp h
  obtain ⟨rfl, rfl⟩ := Prod.mk.inj heq
  constructor
  · intro hprimitive
    rw [Bool.and_eq_true, bne_iff_ne] at hprimitive
    obtain ⟨hat, hamp⟩ := hprimitive
    rw [more_of_head? hamp] at hmore
    cases hmore
    obtain ⟨keyword, ls, rfl, hkeyword⟩ := exists_eq_primitive hat
    obtain ⟨as, hfront, has⟩ := sound_annotations hannotations
    obtain ⟨n, hn⟩ := exists_dimensions ls
    rw [type_primitive hkeyword] at htype
    rw [Option.some.inj htype] at hn
    have hsame : content ++ .rightParen :: rest =
        as ++ .keyword keyword :: emptyBrackets n ++ .rightParen :: rest := by
      rw [hfront, hn, List.append_assoc, List.cons_append]
    exact ⟨as, keyword, n, has, hkeyword, List.append_cancel_right hsame⟩
  · rintro ⟨as, keyword, n, has, hkeyword, rfl⟩
    rw [List.append_assoc, List.cons_append,
      annotations_append_cons (k := .keyword keyword) has (by simp)] at hannotations
    cases hannotations
    have hclosed : (TokenKind.rightParen :: rest).head? ≠ some .leftBracket := nofun
    rw [type_primitive hkeyword, dimensions_append n hclosed] at htype
    cases htype
    rw [atPrimitive, hkeyword]
    rfl

/-- The type of a cast is passed up to a closing parenthesis, if it is all that stands in a
group. -/
theorem castType_iff {closer : TokenKind} {primitive : Bool} {more : List TokenKind}
    (hcontent : IsContent content) (hcloser : closer.closesGroup = true) :
    castType (content ++ closer :: rest) = some (primitive, .rightParen :: more) ↔
      (closer = .rightParen ∧ rest = more) ∧ IsIntersection content ∧
        (primitive = true ↔ IsPrimitiveType content) := by
  constructor
  · intro hcast
    have hpassed : intersection (content ++ closer :: rest) = some (.rightParen :: more) := by
      rw [← map_castType, hcast, Option.map_some]
    obtain ⟨front, heq, hfront⟩ := fills_intersection.sound hpassed
    obtain ⟨rfl, rfl, rfl⟩ :=
      hcontent.unique hcloser (fills_intersection.isContent hfront) rfl heq
    exact ⟨⟨rfl, rfl⟩, hfront, castType_primitive_iff hcast⟩
  · rintro ⟨⟨rfl, rfl⟩, hintersection, hprimitive⟩
    have hpassed := fills_intersection.append hintersection rest
    rw [← map_castType] at hpassed
    obtain ⟨⟨b, after⟩, hcast, rfl⟩ := Option.map_eq_some_iff.mp hpassed
    have hb := castType_primitive_iff hcast
    rw [hcast, Bool.eq_iff_iff.mpr (hb.trans hprimitive.symm)]

end Recognizer

instance (ks : List TokenKind) : Decidable (IsIntersection ks) :=
  decidable_of_iff _ Recognizer.fills_intersection.iff.symm

/-- A primitive type is a type. -/
theorem IsPrimitiveType.isType {ks : List TokenKind} (h : IsPrimitiveType ks) : IsType ks := by
  obtain ⟨as, keyword, n, has, hkeyword, rfl⟩ := h
  exact .primitive n has hkeyword

/-- The type of a cast is found to be primitive exactly if it is. -/
theorem isPrimitiveType_iff {ks : List TokenKind} :
    IsPrimitiveType ks ↔
      Recognizer.castType (ks ++ [.rightParen]) = some (true, [.rightParen]) := by
  refine ⟨fun h => ?_, fun h => (Recognizer.castType_primitive_iff h).mp rfl⟩
  have hks : IsIntersection ks := .single h.isType
  exact (Recognizer.castType_iff (Recognizer.fills_intersection.isContent hks) rfl).mpr
    ⟨⟨rfl, rfl⟩, hks, fun _ => h, fun _ => rfl⟩

instance (ks : List TokenKind) : Decidable (IsPrimitiveType ks) :=
  decidable_of_iff _ isPrimitiveType_iff.symm

/-- What can be cast to a reference type starts with one of these, and no infix expression goes on
with it. -/
inductive TokenKind.CanBeCast : TokenKind → Prop
  | identifier : CanBeCast .identifier
  | literal {k : TokenKind} (h : k.isLiteral = true) : CanBeCast k
  | leftParen : CanBeCast .leftParen
  | bang : CanBeCast .bang
  | tilde : CanBeCast .tilde
  | primitive {keyword : Keyword} (h : keyword.isPrimitiveType = true) :
      CanBeCast (.keyword keyword)
  | this : CanBeCast (.keyword .this)
  | super : CanBeCast (.keyword .super)
  | new : CanBeCast (.keyword .new)
  | switch : CanBeCast (.keyword .switch)
  | void : CanBeCast (.keyword .void)

/-- The lookahead takes those kinds to start an operand that can be cast. -/
theorem Lookahead.startsCastOperand_iff (k : TokenKind) :
    startsCastOperand k = true ↔ k.CanBeCast := by
  constructor
  · intro h
    unfold startsCastOperand at h
    split at h
    · exact .identifier
    · exact .leftParen
    · exact .bang
    · exact .tilde
    · exact .this
    · exact .super
    · exact .new
    · exact .switch
    · exact .void
    · exact .primitive h
    · exact .literal h
  · intro h
    cases h with
    | @literal k h => cases k <;> first | rfl | cases h
    | @primitive keyword h => cases keyword <;> first | rfl | cases h
    | _ => rfl

instance (k : TokenKind) : Decidable k.CanBeCast :=
  decidable_of_iff _ (Lookahead.startsCastOperand_iff k)

/-! ### The rules -/

/-- What a parenthesis opens by the rules, given what stands in its group, what closes the group
and what comes next. -/
def ParenKind.byRules (content : List TokenKind) (closer next : TokenKind) : ParenKind :=
  if next = .arrow then
    if closer = .rightParen ∧ AreNames 0 content then .implicitLambda else .explicitLambda
  else if closer = .rightParen ∧ AreNames 2 content then .implicitLambda
  else if closer = .rightParen ∧ AreParameters content then .explicitLambda
  else if closer = .rightParen ∧ IsIntersection content ∧
      (IsPrimitiveType content ∨ next.CanBeCast) then .cast
  else .parenthesized

/-- An `@` before a type goes unnoticed. -/
example : ParenKind.byRules [.at, .keyword .int, .identifier] .rightParen .endOfInput =
    .explicitLambda := by decide +kernel

end JavaSyntax
