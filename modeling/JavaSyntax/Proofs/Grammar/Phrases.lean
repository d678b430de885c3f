import JavaSyntax.Proofs.Grammar.Recognizer

/-!
# What types are

Types with their annotations, arguments and dimensions as a grammar over kinds of tokens, in
which every closing angle counts for itself. The grammar says nothing about the order in which
anything is tried. The recognizer of types passes exactly what the grammar derives, as long as a
type does not go on behind it.
-/

namespace JavaSyntax

open JavaSyntax.Parser (Step)

/-! ### The grammar -/

/-- A name with dots. -/
inductive IsName : List TokenKind → Prop
  | single : IsName [.identifier]
  | dotted {ks : List TokenKind} (h : IsName ks) : IsName (.identifier :: .dot :: ks)

/-- Kinds that stand inside of a group, with the brackets among them balanced. -/
def IsContent (ks : List TokenKind) : Prop := openGroups 0 ks = some 0

/-- A group is balanced with its brackets. -/
theorem IsContent.group {ks : List TokenKind} {closer : TokenKind} (h : IsContent ks)
    (hcloser : closer.closesGroup = true) : IsContent (.leftParen :: (ks ++ [closer])) := by
  have hopen := openGroups_add h 1
  change openGroups 1 (ks ++ [closer]) = some 0
  rw [openGroups_append, hopen, Option.bind_some, openGroups,
    TokenKind.opensGroup_of_closesGroup hcloser, hcloser]
  rfl

/-- An annotation, perhaps with a group of anything in parentheses. -/
inductive IsAnnotation : List TokenKind → Prop
  | plain {ks : List TokenKind} (h : IsName ks) : IsAnnotation (.at :: ks)
  | called {ks content : List TokenKind} {closer : TokenKind} (h : IsName ks)
      (hcontent : IsContent content) (hcloser : closer.closesGroup = true) :
      IsAnnotation (.at :: (ks ++ .leftParen :: (content ++ [closer])))

/-- Any number of annotations. -/
inductive AreAnnotations : List TokenKind → Prop
  | none : AreAnnotations []
  | more {ks ls : List TokenKind} (h : IsAnnotation ks) (hs : AreAnnotations ls) :
      AreAnnotations (ks ++ ls)

/-- So many pairs of empty brackets. -/
def emptyBrackets : Nat → List TokenKind
  | 0 => []
  | n + 1 => .leftBracket :: .rightBracket :: emptyBrackets n

/-- The phrases of which types are made up. -/
inductive TypePhrase where
  | type
  /-- A name of a class type with its arguments. -/
  | segment
  /-- The names of a class type behind the first one, with their dots. -/
  | segments
  /-- The arguments behind a `<`, with the `>` that closes them. -/
  | arguments
  | argument

/-- What kinds make up a phrase. -/
inductive TypePhrase.Derives : TypePhrase → List TokenKind → Prop
  | primitive {as : List TokenKind} {keyword : Keyword} (n : Nat) (has : AreAnnotations as)
      (hkeyword : keyword.isPrimitiveType = true) :
      Derives .type (as ++ .keyword keyword :: emptyBrackets n)
  | classType {as first more : List TokenKind} (n : Nat) (has : AreAnnotations as)
      (hfirst : Derives .segment first) (hmore : Derives .segments more) :
      Derives .type (as ++ (first ++ (more ++ emptyBrackets n)))
  | name : Derives .segment [.identifier]
  | diamond : Derives .segment [.identifier, .less, .greater]
  | generic {ks : List TokenKind} (h : Derives .arguments ks) :
      Derives .segment (.identifier :: .less :: ks)
  | noSegments : Derives .segments []
  | moreSegments {as next more : List TokenKind} (has : AreAnnotations as)
      (hnext : Derives .segment next) (hmore : Derives .segments more) :
      Derives .segments (.dot :: (as ++ (next ++ more)))
  | lastArgument {ks : List TokenKind} (h : Derives .argument ks) :
      Derives .arguments (ks ++ [.greater])
  | moreArguments {ks ls : List TokenKind} (h : Derives .argument ks)
      (hs : Derives .arguments ls) : Derives .arguments (ks ++ .comma :: ls)
  | typeArgument {ks : List TokenKind} (h : Derives .type ks) : Derives .argument ks
  | wildcard {as : List TokenKind} (has : AreAnnotations as) :
      Derives .argument (as ++ [.question])
  | bounded {as ks : List TokenKind} {keyword : Keyword} (has : AreAnnotations as)
      (hkeyword : keyword = .extends ∨ keyword = .super) (h : Derives .type ks) :
      Derives .argument (as ++ .question :: .keyword keyword :: ks)

/-- Whether kinds are a type. -/
abbrev IsType (ks : List TokenKind) : Prop := TypePhrase.type.Derives ks

/-- Whether kinds are a primitive type, with or without dimensions. -/
def IsPrimitiveType (ks : List TokenKind) : Prop :=
  ∃ as keyword n, AreAnnotations as ∧ keyword.isPrimitiveType = true ∧
    ks = as ++ .keyword keyword :: emptyBrackets n

/-- Whether a type does not go on with such a kind. -/
def TokenKind.stopsType : TokenKind → Bool
  | .less | .dot | .leftBracket => false
  | _ => true

/-- Annotations may be followed by more of them. -/
theorem AreAnnotations.append {ks ls : List TokenKind} (h : AreAnnotations ks)
    (h' : AreAnnotations ls) : AreAnnotations (ks ++ ls) := by
  induction h with
  | none => exact h'
  | more h _ ih =>
    rw [List.append_assoc]
    exact .more h ih

/-- More annotations may stand before a type. -/
theorem IsType.annotated {as ks : List TokenKind} (h : IsType ks) (has : AreAnnotations as) :
    IsType (as ++ ks) := by
  cases h with
  | primitive n has' hkeyword =>
    rw [← List.append_assoc]
    exact .primitive n (has.append has') hkeyword
  | classType n has' hfirst hmore =>
    rw [← List.append_assoc]
    exact .classType n (has.append has') hfirst hmore

namespace Recognizer

variable {ks rest front : List TokenKind} {n : Nat}

/-- A recognizer passes only what belongs to a language. -/
def Sound (r : Recognizer) (L : List TokenKind → Prop) : Prop :=
  ∀ {ks rest}, r ks = some rest → ∃ front, ks = front ++ rest ∧ L front

/-- A sound recognizer passes a part of what it is given. -/
theorem Sound.shrinks {r : Recognizer} {L : List TokenKind → Prop} (h : r.Sound L) :
    r.Shrinks := by
  intro ks rest hrest
  obtain ⟨front, rfl, -⟩ := h hrest
  simp

/-! ### Names -/

/-- Names behind dots go on with a name. -/
theorem exists_dotted (ks : List TokenKind) :
    ∃ front, ks = front ++ dotted ks ∧ IsName (.identifier :: front) := by
  fun_induction dotted ks with
  | case1 ks ih =>
    obtain ⟨front, hfront, hname⟩ := ih
    refine ⟨.dot :: .identifier :: front, ?_, .dotted hname⟩
    rw [List.cons_append, List.cons_append, ← hfront]
  | case2 ks _ => exact ⟨[], rfl, .single⟩

/-- What is passed as a name is one. -/
theorem sound_name : Sound name IsName := by
  intro ks rest h
  unfold name at h
  split at h
  · cases h
    obtain ⟨front, hfront, hname⟩ := exists_dotted ‹_›
    exact ⟨.identifier :: front, congrArg _ hfront, hname⟩
  · cases h

/-- Without a dot nothing more is passed. -/
theorem dotted_of_head? (h : rest.head? ≠ some .dot) : dotted rest = rest := by
  unfold dotted
  split
  · exact absurd rfl h
  · rfl

/-- A name is passed if no dot comes behind it. -/
theorem name_append (h : IsName ks) (hrest : rest.head? ≠ some .dot) :
    name (ks ++ rest) = some rest := by
  induction h with
  | single => exact congrArg some (dotted_of_head? hrest)
  | dotted h ih =>
    rw [← ih]
    cases h <;> rfl

/-! ### Groups -/

/-- A bracket that opens a group goes one deeper, one that closes a group comes back or ends it,
and everything else is passed. -/
theorem balance_eq (depth : Nat) (k : TokenKind) :
    Lookahead.balance depth k =
      if k.opensGroup then .again (depth + 1)
      else if k.closesGroup then if depth ≤ 1 then .done true else .again (depth - 1)
      else .again depth := by
  cases k <;> rfl

/-- What opens as much as it closes is passed inside of a group. -/
theorem group_append {depth d : Nat} {content : List TokenKind}
    (h : openGroups depth content = some d) (rest : List TokenKind) :
    group (depth + 1) (content ++ rest) = group (d + 1) rest := by
  induction content generalizing depth with
  | nil =>
    cases h
    rfl
  | cons k content ih =>
    rw [openGroups] at h
    rw [List.cons_append, group, balance_eq]
    split at h
    · rename_i hopens
      rw [if_pos hopens]
      exact ih h
    rename_i hopens
    rw [if_neg hopens]
    split at h
    · rename_i hcloses
      rw [if_pos hcloses]
      split at h
      · cases h
      · rw [if_neg (by omega)]
        have hsame : depth + 1 - 1 = depth - 1 + 1 := by omega
        dsimp only
        rw [hsame]
        exact ih h
    · rename_i hcloses
      rw [if_neg hcloses]
      exact ih h

/-- Outside of all groups a group is passed with its brackets. -/
theorem group_paren {content : List TokenKind} {closer : TokenKind} (h : IsContent content)
    (hcloser : closer.closesGroup = true) (rest : List TokenKind) :
    group 0 (.leftParen :: (content ++ closer :: rest)) = some rest := by
  change group 1 (content ++ closer :: rest) = _
  rw [show (1 : Nat) = 0 + 1 from rfl, group_append h, group, balance_eq]
  simp [TokenKind.opensGroup_of_closesGroup hcloser, hcloser]

/-- What is passed of a group is balanced, and ends with a closing bracket. -/
theorem exists_content (depth : Nat) (h : group (depth + 1) ks = some rest) :
    ∃ content closer, ks = content ++ closer :: rest ∧ openGroups depth content = some 0 ∧
      closer.closesGroup = true := by
  induction ks generalizing depth with
  | nil => cases h
  | cons k ks ih =>
    rw [group, balance_eq] at h
    by_cases hopens : k.opensGroup = true
    · rw [if_pos hopens] at h
      obtain ⟨content, closer, rfl, hcontent, hcloser⟩ := ih _ h
      refine ⟨k :: content, closer, rfl, ?_, hcloser⟩
      rw [openGroups, if_pos hopens]
      exact hcontent
    rw [if_neg hopens] at h
    by_cases hcloses : k.closesGroup = true
    · rw [if_pos hcloses] at h
      by_cases hdepth : depth + 1 ≤ 1
      · rw [if_pos hdepth] at h
        cases h
        exact ⟨[], k, rfl, by rw [openGroups, show depth = 0 by omega], hcloses⟩
      · obtain ⟨d, rfl⟩ : ∃ d, depth = d + 1 := Nat.exists_eq_succ_of_ne_zero (by omega)
        rw [if_neg hdepth] at h
        obtain ⟨content, closer, rfl, hcontent, hcloser⟩ := ih _ h
        refine ⟨k :: content, closer, rfl, ?_, hcloser⟩
        rw [openGroups, if_neg hopens, if_pos hcloses, if_neg (Nat.succ_ne_zero d)]
        exact hcontent
    · rw [if_neg hcloses] at h
      obtain ⟨content, closer, rfl, hcontent, hcloser⟩ := ih _ h
      refine ⟨k :: content, closer, rfl, ?_, hcloser⟩
      rw [openGroups, if_neg hopens, if_neg hcloses]
      exact hcontent

/-- A group that is passed is balanced. -/
theorem within_of_group (h : group 1 ks = some rest) : Within (.leftParen :: ks) rest := by
  obtain ⟨content, closer, rfl, hcontent, hcloser⟩ := exists_content 0 h
  exact ⟨.leftParen :: (content ++ [closer]), 0, by simp, IsContent.group hcontent hcloser⟩

/-! ### Annotations -/

/-- What comes behind an annotation and is no part of it. -/
structure EndsAnnotation (rest : List TokenKind) : Prop where
  ne_dot : rest.head? ≠ some .dot
  ne_leftParen : rest.head? ≠ some .leftParen

/-- What is passed behind an `@` makes it an annotation. -/
theorem exists_annotationUse (h : annotationUse ks = some rest) :
    ∃ front, ks = front ++ rest ∧ IsAnnotation (.at :: front) := by
  obtain ⟨behind, hname, hgroup⟩ := Option.bind_eq_some_iff.mp h
  obtain ⟨front, rfl, hfront⟩ := sound_name hname
  unfold optionalGroup at hgroup
  split at hgroup
  · obtain ⟨content, closer, rfl, hcontent, hcloser⟩ := exists_content 0 hgroup
    exact ⟨front ++ .leftParen :: (content ++ [closer]), by simp,
      .called hfront hcontent hcloser⟩
  · cases hgroup
    exact ⟨front, rfl, .plain hfront⟩

/-- An annotation is passed if nothing comes behind it that it could go on with. -/
theorem annotationUse_append {as : List TokenKind} (h : IsAnnotation as)
    (hrest : EndsAnnotation rest) :
    atAnnotation (as ++ rest) = true ∧ annotationUse (as ++ rest).tail = some rest := by
  have hat {ks : List TokenKind} (hks : IsName ks) (ls : List TokenKind) :
      atAnnotation (.at :: (ks ++ ls)) = true := by
    cases hks <;> rfl
  cases h with
  | @plain ks h =>
    refine ⟨hat h rest, ?_⟩
    change (name (ks ++ rest)).bind optionalGroup = some rest
    rw [name_append h hrest.ne_dot, Option.bind_some, optionalGroup]
    rintro ls rfl
    exact hrest.ne_leftParen rfl
  | @called ks content closer h hcontent hcloser =>
    rw [List.cons_append, List.append_assoc]
    refine ⟨hat h _, ?_⟩
    change (name (ks ++ (.leftParen :: (content ++ [closer]) ++ rest))).bind optionalGroup =
      some rest
    rw [List.cons_append, List.append_assoc, name_append h (by simp)]
    exact group_paren hcontent hcloser rest

/-- What is passed as annotations are annotations. -/
theorem sound_annotations : Sound annotations AreAnnotations := by
  intro ks rest h
  refine repeated_induction (P := fun ks rest => ∃ front, ks = front ++ rest ∧
    AreAnnotations front) shortens_annotationStep h ?_ ?_
  · rintro ks next rest hstep ⟨front, rfl, hfront⟩
    unfold annotationStep at hstep
    split at hstep
    · rename_i hat
      split at hstep
      · rename_i hnext
        cases hstep
        obtain ⟨as, htail, has⟩ := exists_annotationUse hnext
        obtain ⟨ks, rfl⟩ := exists_eq_at hat
        obtain rfl : ks = _ := htail
        exact ⟨.at :: as ++ front, by simp, .more has hfront⟩
      · cases hstep
    · cases hstep
  · intro ks rest hstep
    unfold annotationStep at hstep
    split at hstep
    · split at hstep <;> cases hstep
    · cases hstep
      exact ⟨[], rfl, .none⟩

/-- Where no annotation comes next, none is passed. -/
theorem annotations_of_not_at (h : atAnnotation ks = false) : annotations ks = some ks := by
  rw [annotations, repeated_eq shortens_annotationStep, annotationStep, h]
  rfl

/-- Annotations are passed, and then what comes behind them is looked at. -/
theorem annotations_append {as : List TokenKind} (h : AreAnnotations as)
    (hrest : EndsAnnotation rest) : annotations (as ++ rest) = annotations rest := by
  induction h with
  | none => rfl
  | @more ks ls h hs ih =>
    have hends : EndsAnnotation (ls ++ rest) := by
      cases hs with
      | none => exact hrest
      | more h _ => cases h <;> exact ⟨nofun, nofun⟩
    rw [List.append_assoc, annotations, repeated_eq shortens_annotationStep, annotationStep,
      (annotationUse_append h hends).1, (annotationUse_append h hends).2]
    exact ih

/-- Behind annotations there are no more of them. -/
theorem atAnnotation_of_annotations (h : annotations ks = some rest) :
    atAnnotation rest = false := by
  refine repeated_induction (P := fun _ rest => atAnnotation rest = false)
    shortens_annotationStep h (fun _ _ _ _ h => h) ?_
  intro ks rest hstep
  unfold annotationStep at hstep
  split at hstep
  · split at hstep <;> cases hstep
  · rename_i hat
    cases hstep
    simpa using hat

/-! ### What a recognizer of types passes is a type -/

/-- What is passed as dimensions are empty brackets. -/
theorem exists_dimensions (ks : List TokenKind) :
    ∃ n, ks = emptyBrackets n ++ dimensions ks := by
  fun_induction dimensions ks with
  | case1 ks ih =>
    obtain ⟨n, hn⟩ := ih
    refine ⟨n + 1, ?_⟩
    rw [emptyBrackets, List.cons_append, List.cons_append, ← hn]
  | case2 ks _ => exact ⟨0, rfl⟩

section Sound

variable {t : Recognizer} (ht : Sound t IsType)

include ht

/-- What is passed as an argument is one. -/
theorem exists_argument
    (h : (annotations ks).bind (argument t) = some rest) :
    ∃ front, ks = front ++ rest ∧ TypePhrase.argument.Derives front := by
  obtain ⟨behind, hannotations, hargument⟩ := Option.bind_eq_some_iff.mp h
  obtain ⟨as, rfl, has⟩ := sound_annotations hannotations
  unfold argument at hargument
  split at hargument
  · unfold bound at hargument
    split at hargument
    · obtain ⟨front, rfl, hfront⟩ := ht hargument
      exact ⟨as ++ .question :: .keyword .extends :: front, by simp,
        .bounded has (.inl rfl) hfront⟩
    · obtain ⟨front, rfl, hfront⟩ := ht hargument
      exact ⟨as ++ .question :: .keyword .super :: front, by simp,
        .bounded has (.inr rfl) hfront⟩
    · cases hargument
      exact ⟨as ++ [.question], by simp, .wildcard has⟩
  · obtain ⟨front, rfl, hfront⟩ := ht hargument
    exact ⟨as ++ front, by simp, .typeArgument (hfront.annotated has)⟩

/-- What is passed behind a `<` are arguments with the closing angle. -/
theorem exists_arguments (h : repeated (argumentStep t) ks = some rest) :
    ∃ front, ks = front ++ rest ∧ TypePhrase.arguments.Derives front := by
  refine repeated_induction (P := fun ks rest => ∃ front, ks = front ++ rest ∧
    TypePhrase.arguments.Derives front) (shortens_argumentStep ht.shrinks) h ?_ ?_
  · rintro ks next rest hstep ⟨front, rfl, hfront⟩
    unfold argumentStep at hstep
    split at hstep
    · rename_i hargument
      cases hstep
      obtain ⟨argument, rfl, hderives⟩ := exists_argument ht hargument
      exact ⟨argument ++ .comma :: front, by simp, .moreArguments hderives hfront⟩
    · cases hstep
    · cases hstep
  · intro ks rest hstep
    unfold argumentStep at hstep
    split at hstep
    · cases hstep
    · rename_i behind _ hargument
      obtain ⟨argument, rfl, hderives⟩ := exists_argument ht hargument
      unfold closingAngle at hstep
      split at hstep
      · cases hstep
        exact ⟨argument ++ [.greater], by simp, .lastArgument hderives⟩
      · cases hstep
    · cases hstep

/-- What is passed as a segment is one. -/
theorem exists_segment (h : segment t ks = some rest) :
    ∃ front, ks = front ++ rest ∧ TypePhrase.segment.Derives front := by
  unfold segment at h
  split at h
  · unfold optionalArguments at h
    split at h
    · unfold arguments at h
      split at h
      · cases h
        exact ⟨[.identifier, .less, .greater], rfl, .diamond⟩
      · obtain ⟨front, rfl, hfront⟩ := exists_arguments ht h
        exact ⟨.identifier :: .less :: front, rfl, .generic hfront⟩
    · cases h
      exact ⟨[.identifier], rfl, .name⟩
  · cases h

/-- What is passed behind a segment are further segments. -/
theorem exists_segments (h : repeated (segmentStep t) ks = some rest) :
    ∃ front, ks = front ++ rest ∧ TypePhrase.segments.Derives front := by
  refine repeated_induction (P := fun ks rest => ∃ front, ks = front ++ rest ∧
    TypePhrase.segments.Derives front) (shortens_segmentStep ht.shrinks) h ?_ ?_
  · rintro ks next rest hstep ⟨front, rfl, hfront⟩
    unfold segmentStep at hstep
    split at hstep
    · rename_i hat
      obtain ⟨ks, rfl⟩ := exists_eq_dot hat
      split at hstep
      · rename_i hnext
        cases hstep
        obtain ⟨behind, hannotations, hsegment⟩ := Option.bind_eq_some_iff.mp hnext
        obtain ⟨as, htail, has⟩ := sound_annotations hannotations
        obtain ⟨segment, rfl, hderives⟩ := exists_segment ht hsegment
        obtain rfl : ks = _ := htail
        exact ⟨.dot :: (as ++ (segment ++ front)), by simp, .moreSegments has hderives hfront⟩
      · cases hstep
    · cases hstep
  · intro ks rest hstep
    unfold segmentStep at hstep
    split at hstep
    · split at hstep <;> cases hstep
    · cases hstep
      exact ⟨[], rfl, .noSegments⟩

/-- The annotations, the type itself and its dimensions are passed one after the other. -/
theorem exists_type (h : ((annotations ks).bind (element t)).map dimensions = some rest) :
    ∃ front, ks = front ++ rest ∧ IsType front := by
  obtain ⟨behind, hmap, rfl⟩ := Option.map_eq_some_iff.mp h
  obtain ⟨between, hannotations, helement⟩ := Option.bind_eq_some_iff.mp hmap
  obtain ⟨as, rfl, has⟩ := sound_annotations hannotations
  obtain ⟨n, hbehind⟩ := exists_dimensions behind
  unfold element at helement
  split at helement
  · split at helement
    · rename_i keyword ls hkeyword
      cases helement
      refine ⟨as ++ .keyword keyword :: emptyBrackets n, ?_, .primitive n has hkeyword⟩
      rw [List.append_assoc, List.cons_append, ← hbehind]
    · cases helement
  · obtain ⟨left, hsegment, hsegments⟩ := Option.bind_eq_some_iff.mp helement
    obtain ⟨first, hfirst, hderives⟩ := exists_segment ht hsegment
    obtain ⟨more, rfl, hmore⟩ := exists_segments ht hsegments
    refine ⟨as ++ (first ++ (more ++ emptyBrackets n)), ?_, .classType n has hderives hmore⟩
    rw [hfirst, List.append_assoc, List.append_assoc, List.append_assoc, ← hbehind]
  · cases helement

end Sound

/-- What is passed as a type is one, however deep its arguments may be nested. -/
theorem sound_typeWithin (n : Nat) : Sound (typeWithin n) IsType := by
  induction n with
  | zero =>
    intro ks rest h
    cases h
  | succ n ih =>
    intro ks rest h
    exact exists_type ih h

/-- What is passed as a type is a type. -/
theorem sound_type : Sound type IsType := fun h => sound_typeWithin _ h

/-! ### A type is passed -/

/-- Empty brackets are passed if no bracket comes behind them. -/
theorem dimensions_append (n : Nat) (h : rest.head? ≠ some .leftBracket) :
    dimensions (emptyBrackets n ++ rest) = rest := by
  induction n with
  | zero =>
    rw [emptyBrackets, List.nil_append]
    unfold dimensions
    split
    · exact absurd rfl h
    · rfl
  | succ n ih => exact ih

end Recognizer

/-- What comes behind a phrase when it does not go on. -/
def TypePhrase.Ends : TypePhrase → List TokenKind → Prop
  | .type, rest => ∀ k, rest.head? = some k → k.stopsType = true
  | .segment, rest => rest.head? ≠ some .less
  | .segments, rest => rest.head? ≠ some .less ∧ rest.head? ≠ some .dot
  | .arguments, _ => True
  | .argument, rest => rest.head? = some .comma ∨ rest.head? = some .greater

open Recognizer in
/-- What it means that a recognizer passes a phrase before what comes behind it. -/
def TypePhrase.Passes (front rest : List TokenKind) : TypePhrase → Prop
  | .type => Recognizer.type (front ++ rest) = some rest
  | .segment => Recognizer.segment Recognizer.type (front ++ rest) = some rest
  | .segments => repeated (segmentStep Recognizer.type) (front ++ rest) = some rest
  | .arguments => repeated (argumentStep Recognizer.type) (front ++ rest) = some rest
  | .argument =>
    (annotations (front ++ rest)).bind (Recognizer.argument Recognizer.type) = some rest

namespace Recognizer

variable {ks rest front : List TokenKind} {n : Nat}

/-- A segment starts with a name. -/
theorem exists_segment_eq (h : TypePhrase.segment.Derives ks) : ∃ ls, ks = .identifier :: ls := by
  cases h <;> exact ⟨_, rfl⟩

/-- Behind annotations, what does not start with an angle does not do so either. -/
theorem exists_cons_annotated {as ls : List TokenKind} (has : AreAnnotations as) {k : TokenKind}
    (hk : k ≠ .greater) : ∃ k' ms, as ++ k :: ls = k' :: ms ∧ k' ≠ .greater := by
  cases has with
  | none => exact ⟨k, ls, rfl, hk⟩
  | more h _ => cases h <;> exact ⟨_, _, rfl, nofun⟩

/-- A type starts with something else than a closing angle. -/
theorem exists_cons_type (h : IsType ks) : ∃ k ls, ks = k :: ls ∧ k ≠ .greater := by
  cases h with
  | primitive n has _ => exact exists_cons_annotated has nofun
  | classType n has hfirst _ =>
    obtain ⟨ls, rfl⟩ := exists_segment_eq hfirst
    exact exists_cons_annotated has nofun

/-- An argument starts with something else than a closing angle. -/
theorem exists_cons_argument (h : TypePhrase.argument.Derives ks) :
    ∃ k ls, ks = k :: ls ∧ k ≠ .greater := by
  cases h with
  | typeArgument h => exact exists_cons_type h
  | wildcard has => exact exists_cons_annotated has nofun
  | bounded has _ _ => exact exists_cons_annotated has nofun

/-- Arguments do not start with the angle that closes them. -/
theorem exists_cons_arguments (h : TypePhrase.arguments.Derives ks) :
    ∃ k ls, ks = k :: ls ∧ k ≠ .greater := by
  cases h with
  | lastArgument h =>
    obtain ⟨k, ls, rfl, hk⟩ := exists_cons_argument h
    exact ⟨k, _, rfl, hk⟩
  | moreArguments h _ =>
    obtain ⟨k, ls, rfl, hk⟩ := exists_cons_argument h
    exact ⟨k, _, rfl, hk⟩

/-- Behind a name the next segments start with a dot, if there are any. -/
theorem head?_segments_append (h : TypePhrase.segments.Derives ks)
    (hrest : rest.head? ≠ some .less) : (ks ++ rest).head? ≠ some .less := by
  cases h with
  | noSegments => exact hrest
  | moreSegments _ _ _ => exact nofun

/-- What comes next behind empty brackets is a bracket or what stands behind all of them. -/
theorem head?_emptyBrackets_append {k : TokenKind} (n : Nat) (hrest : rest.head? ≠ some k)
    (hk : k ≠ .leftBracket) : (emptyBrackets n ++ rest).head? ≠ some k := by
  cases n with
  | zero => exact hrest
  | succ n => simpa [emptyBrackets] using hk.symm

/-- Nothing with which a type could go on stands where a type ends. -/
theorem head?_ne_of_stopsType {k : TokenKind}
    (hrest : ∀ k, rest.head? = some k → k.stopsType = true) (hk : k.stopsType = false) :
    rest.head? ≠ some k := by
  intro hhead
  rw [hrest k hhead] at hk
  cases hk

/-- Annotations are passed before any kind with which they do not go on. -/
theorem annotations_append_cons {as : List TokenKind} (has : AreAnnotations as) {k : TokenKind}
    (hk : k ∉ [TokenKind.dot, .leftParen, .at]) :
    annotations (as ++ k :: rest) = some (k :: rest) := by
  have hdot : k ≠ .dot := List.ne_of_not_mem_cons hk
  have hparen : k ≠ .leftParen := List.ne_of_not_mem_cons (List.not_mem_of_not_mem_cons hk)
  have hat : k ≠ .at := by
    rintro rfl
    exact hk (by decide)
  rw [annotations_append has ⟨by simpa using hdot, by simpa using hparen⟩]
  refine annotations_of_not_at ?_
  unfold atAnnotation
  split
  · rename_i h
    exact absurd (List.cons.inj h).1 hat
  · rename_i h
    exact absurd (List.cons.inj h).1 hat
  · rfl

/-- Annotations and a type behind them are an argument. -/
theorem argument_of_type (h : type ks = some rest) :
    (annotations ks).bind (argument type) = some rest := by
  rw [type_eq] at h
  obtain ⟨behind, hmap, rfl⟩ := Option.map_eq_some_iff.mp h
  obtain ⟨between, hannotations, helement⟩ := Option.bind_eq_some_iff.mp hmap
  have hdone := annotations_of_not_at (atAnnotation_of_annotations hannotations)
  have htype : type between = some (dimensions behind) := by
    rw [type_eq, hdone, Option.bind_some, helement, Option.map_some]
  rw [hannotations, Option.bind_some, argument]
  · exact htype
  · rintro ls rfl
    cases helement

/-- Annotations are passed before a segment. -/
theorem annotations_append_segment {as segment : List TokenKind} (has : AreAnnotations as)
    (h : TypePhrase.segment.Derives segment) :
    annotations (as ++ (segment ++ rest)) = some (segment ++ rest) := by
  obtain ⟨ls, rfl⟩ := exists_segment_eq h
  exact annotations_append_cons has (by decide)

/-- Behind its annotations, a type is passed with the brackets that follow. -/
theorem type_of_element {ls : List TokenKind} (hannotations : annotations ks = some ls)
    (helement : element type ls = some (emptyBrackets n ++ rest))
    (hrest : rest.head? ≠ some .leftBracket) : type ks = some rest := by
  rw [type_eq, hannotations, Option.bind_some, helement, Option.map_some,
    dimensions_append n hrest]

/-- Without a dot no segment comes next. -/
theorem atSegment_eq_false (hrest : rest.head? ≠ some .dot) : atSegment rest = false := by
  unfold atSegment
  split
  · exact absurd rfl hrest
  · exact absurd rfl hrest
  · rfl

/-- A dot with a segment behind its annotations goes on with a class type. -/
theorem atSegment_dot_append {as next : List TokenKind} (has : AreAnnotations as)
    (h : TypePhrase.segment.Derives next) : atSegment (.dot :: (as ++ (next ++ rest))) = true := by
  obtain ⟨ls, rfl⟩ := exists_segment_eq h
  cases has with
  | none => rfl
  | more h _ => cases h <;> rfl

/-- Where a segment is passed, so is the dot before it with the annotations. -/
theorem segmentStep_dot_append {t : Recognizer} {as next : List TokenKind}
    (has : AreAnnotations as) (h : TypePhrase.segment.Derives next)
    (hsegment : segment t (next ++ rest) = some ks) :
    segmentStep t (.dot :: (as ++ (next ++ rest))) = .again ks := by
  rw [segmentStep, atSegment_dot_append has h, List.tail_cons, annotations_append_segment has h,
    Option.bind_some, hsegment]
  rfl

/-- A type ends wherever an argument ends. -/
theorem ends_type_of_argument (h : TypePhrase.argument.Ends rest) : TypePhrase.type.Ends rest := by
  intro k hk
  rcases h with hcomma | hgreater
  · cases hcomma.symm.trans hk
    rfl
  · cases hgreater.symm.trans hk
    rfl

/-- Everything that the grammar derives is passed, if it does not go on. -/
theorem passes_of_derives {p : TypePhrase} (h : p.Derives front) (rest : List TokenKind)
    (hrest : p.Ends rest) : p.Passes front rest := by
  induction h generalizing rest with
  | @primitive as keyword n has hkeyword =>
    rw [TypePhrase.Passes, List.append_assoc, List.cons_append]
    exact type_of_element (annotations_append_cons has (by simp)) (if_pos hkeyword)
      (head?_ne_of_stopsType hrest rfl)
  | @classType as first more n has hfirst hmore ihfirst ihmore =>
    have hless := head?_emptyBrackets_append n
      (head?_ne_of_stopsType (k := .less) hrest rfl) (by decide)
    have hdot := head?_emptyBrackets_append n
      (head?_ne_of_stopsType (k := .dot) hrest rfl) (by decide)
    have hsegment := ihfirst (more ++ (emptyBrackets n ++ rest)) (head?_segments_append hmore hless)
    have hsegments := ihmore (emptyBrackets n ++ rest) ⟨hless, hdot⟩
    have helement : element type (first ++ (more ++ (emptyBrackets n ++ rest))) =
        some (emptyBrackets n ++ rest) := by
      obtain ⟨ls, rfl⟩ := exists_segment_eq hfirst
      change classType type (.identifier :: ls ++ _) = _
      rw [classType, hsegment, Option.bind_some, hsegments]
    rw [TypePhrase.Passes, List.append_assoc, List.append_assoc, List.append_assoc]
    exact type_of_element (annotations_append_segment has hfirst) helement
      (head?_ne_of_stopsType hrest rfl)
  | name =>
    change optionalArguments type rest = some rest
    rw [optionalArguments]
    rintro ls rfl
    exact hrest rfl
  | diamond => rfl
  | @generic ks h ih =>
    change arguments type (ks ++ rest) = some rest
    obtain ⟨k, ls, rfl, hk⟩ := exists_cons_arguments h
    rw [arguments]
    · exact ih rest trivial
    · intro ms hms
      exact hk (List.cons.inj hms).1
  | noSegments =>
    rw [TypePhrase.Passes, List.nil_append, repeated_eq (shortens_segmentStep shrinks_type),
      segmentStep, atSegment_eq_false hrest.2]
    rfl
  | @moreSegments as next more has hnext hmore ihnext ihmore =>
    have hsegment := ihnext (more ++ rest) (head?_segments_append hmore hrest.1)
    rw [TypePhrase.Passes, List.cons_append, List.append_assoc, List.append_assoc,
      repeated_eq (shortens_segmentStep shrinks_type), segmentStep_dot_append has hnext hsegment]
    exact ihmore rest hrest
  | @lastArgument ks h ih =>
    have hargument := ih (.greater :: rest) (.inr rfl)
    rw [TypePhrase.Passes, List.append_assoc, List.singleton_append,
      repeated_eq (shortens_argumentStep shrinks_type), argumentStep, hargument]
    rfl
  | @moreArguments ks ls h hs ih ihs =>
    have hargument := ih (.comma :: (ls ++ rest)) (.inl rfl)
    rw [TypePhrase.Passes, List.append_assoc, List.cons_append,
      repeated_eq (shortens_argumentStep shrinks_type), argumentStep, hargument]
    exact ihs rest trivial
  | typeArgument h ih => exact argument_of_type (ih rest (ends_type_of_argument hrest))
  | @wildcard as has =>
    rw [TypePhrase.Passes, List.append_assoc, List.singleton_append,
      annotations_append_cons (k := .question) has (by decide), Option.bind_some, argument,
      bound]
    · rintro ls rfl
      rcases hrest with h | h <;> cases h
    · rintro ls rfl
      rcases hrest with h | h <;> cases h
  | @bounded as ks keyword has hkeyword h ih =>
    have htype : Recognizer.type (ks ++ rest) = some rest := ih rest (ends_type_of_argument hrest)
    rw [TypePhrase.Passes, List.append_assoc, List.cons_append, List.cons_append,
      annotations_append_cons (k := .question) has (by decide), Option.bind_some, argument]
    rcases hkeyword with rfl | rfl
    · exact htype
    · exact htype

/-- A type is passed, if it does not go on behind it. -/
theorem type_append (h : IsType front) (hrest : ∀ k, rest.head? = some k → k.stopsType = true) :
    type (front ++ rest) = some rest := passes_of_derives h rest hrest

end Recognizer

end JavaSyntax
