import JavaSyntax.Proofs.Grammar.ParenShapes
import JavaSyntax.Proofs.Grammar.TypesAhead
import JavaSyntax.Proofs.Token.Twins

/-!
# What parentheses open

Four questions decide what a parenthesis opens, and the parse goes back to the parenthesis before
each of them. The answers are those of recognizers on the kinds in the group. So the decision is
the one that the rules make, for every group that ends within the budget of a lookahead.
-/

namespace JavaSyntax

namespace Lookahead

open JavaSyntax.Parser (Step Gives)

variable {x : Tokenized} {T low : Nat} {us ks content rest : List TokenKind} {closer : TokenKind}
  {σ : LookaheadState} {s : ParserState} {w : Word} {ws : List Word}

/-! ### Lists -/

/-- A lookahead reports what a recognizer finds, and stands where the recognizer has come to. -/
def Reports {α : Type} (x : Tokenized) (T : Nat) (us : List TokenKind) (low : Nat)
    (result : Option (α × List TokenKind)) (found : Option α) (σ : LookaheadState)
    (c : Cursor) : Prop :=
  match found with
  | some a => ∃ rest, result = some (a, rest) ∧ Sees x T us low rest σ c
  | none => result = none

private theorem head?_ne_of_ne_cons {k : TokenKind} (h : ∀ rest, ks ≠ k :: rest) :
    ks.head? ≠ some k := by
  intro hhead
  obtain ⟨rest, hrest⟩ := List.head?_eq_some_iff.mp hhead
  exact h rest hrest

/-- The lookahead finds a primitive type where the recognizer does. -/
theorem Sees.atPrimitive (h : Sees x T us low ks σ s.cursor) :
    Answers atPrimitive σ s fun b σ' c =>
      b = Recognizer.atPrimitive ks ∧ Sees x T us low ks σ' c := by
  refine .bind h.kindAt_zero ?_
  clear h
  rintro k σ s ⟨hshows, h⟩
  split
  · obtain ⟨rest, rfl⟩ := hshows.exists_eq_cons rfl
    exact .pure ⟨rfl, h⟩
  · rename_i hkeyword
    refine .pure ⟨?_, h⟩
    unfold Recognizer.atPrimitive
    split
    · exact absurd (hshows.eq_of_cons (by simp)) (hkeyword _)
    · rfl

section Room

variable (hroom : ¬ Exceeds T us)

include hroom

/-- Names are passed and counted, if there is nothing else before the next separator. -/
theorem Sees.skipIdentifierList (h : Sees x T us low ks σ s.cursor) :
    Answers skipIdentifierList σ s (Reports x T us low (Recognizer.names ks)) := by
  refine .loop (n := ks.length)
    (I := fun n count σ' c => ∃ ls : List TokenKind, ls.length = n ∧
      Recognizer.names ks = (Recognizer.names ls).map (fun r => (r.1 + count, r.2)) ∧
        Sees x T us low ls σ' c)
    ⟨ks, rfl, Option.map_id'.symm, h⟩ h.views.length_lt ?_
  clear h
  rintro n count σ s ⟨ls, rfl, hnames, h⟩
  refine .bind h.exhausted ?_
  clear h
  rintro isExhausted σ s h
  cases isExhausted with
  | true => exact absurd h hroom
  | false =>
  refine .bind (h.eat .identifier rfl rfl) ?_
  clear h
  rintro found σ s hfound
  cases found with
  | false =>
    rw [Recognizer.names_eq_none hfound.1] at hnames
    exact .pure hnames
  | true =>
  obtain ⟨ls, rfl, h⟩ := hfound
  refine .bind (h.eat .comma rfl rfl) ?_
  clear h
  rintro found σ s hfound
  cases found with
  | false =>
    obtain ⟨hother, h⟩ := hfound
    rw [Recognizer.names] at hnames
    · exact .pure ⟨ls, by rw [hnames, Option.map_some, Nat.add_comm], h⟩
    · exact hother
  | true =>
    obtain ⟨ls, rfl, h⟩ := hfound
    refine .pure ⟨ls.length, by simp only [List.length_cons]; omega, ls, rfl, ?_, h⟩
    rw [hnames, Recognizer.names, Option.map_map]
    congr
    funext r
    exact congrArg (·, r.2) (by dsimp only; omega)

/-- The lookahead passes the modifiers that the recognizer passes. -/
theorem Sees.skipModifiers (h : Sees x T us low ks σ s.cursor) :
    Answers skipModifiers σ s fun _ σ' c =>
      ∃ rest, Recognizer.modifiers ks = some rest ∧ Sees x T us low rest σ' c := by
  refine .loop (n := ks.length)
    (I := fun n _ σ' c => ∃ ls : List TokenKind, ls.length = n ∧
      Recognizer.modifiers ls = Recognizer.modifiers ks ∧ Sees x T us low ls σ' c)
    ⟨ks, rfl, rfl, h⟩ h.views.length_lt ?_
  clear h
  rintro n any σ s ⟨ls, rfl, hsame, h⟩
  rw [Recognizer.modifiers, Recognizer.repeated_eq Recognizer.shortens_modifierStep] at hsame
  refine .bind (h.eat (.keyword .final) rfl rfl) ?_
  clear h
  rintro found σ s hfound
  cases found with
  | true =>
    obtain ⟨ls, rfl, h⟩ := hfound
    exact .pure ⟨ls.length, Nat.lt_succ_self _, ls, rfl, hsame, h⟩
  | false =>
  obtain ⟨hfinal, h⟩ := hfound
  rw [Recognizer.modifierStep_of_not_final hfinal] at hsame
  refine .bind h.atAnnotation ?_
  clear h
  rintro found σ s ⟨hfound, h⟩
  rw [← hfound] at hsame
  cases found with
  | false => exact .pure ⟨ls, hsame.symm, h⟩
  | true =>
  obtain ⟨ls, rfl⟩ := Recognizer.exists_eq_at hfound.symm
  rw [if_pos rfl, List.tail_cons] at hsame
  refine .bind h.skipAnnotation ?_
  clear h
  rintro passed σ s hpassed
  cases passed with
  | true =>
    obtain ⟨rest, hrest, h⟩ := hpassed
    rw [hrest] at hsame
    have hle := Recognizer.shrinks_annotationUse hrest
    exact .pure ⟨rest.length, Nat.lt_succ_of_le hle, rest, rfl, hsame, h⟩
  | false =>
    rcases hpassed with ⟨hnone, h⟩ | hexceeds
    · rw [hnone] at hsame
      exact .pure ⟨_, hsame.symm, h⟩
    · exact absurd hexceeds hroom

/-- Parameters are passed with the commas between them. -/
theorem follows_skipFormalParameters :
    Follows x T us low skipFormalParameters Recognizer.parameters := by
  intro ks σ s h
  refine h.loop (Recognizer.shortens_separatedStep Recognizer.sound_parameter.shrinks) ?_
  clear h
  intro ks σ s h
  refine .bind h.exhausted ?_
  clear h
  rintro isExhausted σ s h
  cases isExhausted with
  | true => exact absurd h hroom
  | false =>
  refine .bind (h.skipModifiers hroom) ?_
  clear h
  rintro _ σ s ⟨behind, hbehind, h⟩
  have hparameter {result : Option (List TokenKind)}
      (hresult : (Recognizer.type behind).bind Recognizer.declared = result) :
      Recognizer.parameter ks = result := by
    rw [Recognizer.parameter, hbehind, Option.bind_some, hresult]
  refine .bind (follows_skipType h) ?_
  clear h
  rintro passed σ s hpassed
  cases passed with
  | false =>
    refine .pure (hpassed.stopped fun hnone => ?_)
    rw [Recognizer.separatedStep, hparameter (by rw [hnone, Option.bind_none])]
  | true =>
  obtain ⟨after, hafter, h⟩ := hpassed
  rw [hafter, Option.bind_some] at hparameter
  refine .bind (Q := fun _ σ' c => ∃ ls, Recognizer.declared after = Recognizer.arrayName ls ∧
    Sees x T us low ls σ' c) ?_ ?_
  · refine (h.eat .ellipsis rfl rfl).mono ?_
    clear h
    rintro found σ' c hfound
    cases found with
    | true =>
      obtain ⟨ls, rfl, h⟩ := hfound
      exact ⟨ls, rfl, h⟩
    | false =>
      refine ⟨after, ?_, hfound.2⟩
      rw [Recognizer.declared]
      exact hfound.1
  clear h
  rintro _ σ s ⟨ls, hls, h⟩
  refine .bind (h.eat .identifier rfl rfl) ?_
  clear h
  rintro found σ s hfound
  cases found with
  | false =>
    have hnone : Recognizer.arrayName ls = none := by
      unfold Recognizer.arrayName
      split
      · exact absurd rfl (hfound.1 _)
      · rfl
    refine .pure (.inl ⟨none, ?_, .inl rfl⟩)
    rw [Recognizer.separatedStep, hparameter (hls.trans hnone)]
  | true =>
  obtain ⟨ls, rfl, h⟩ := hfound
  have hstep : Recognizer.separatedStep Recognizer.parameter .comma ks =
      Recognizer.separator .comma (Recognizer.dimensions ls) := by
    rw [Recognizer.separatedStep, hparameter hls]
    rfl
  rw [hstep]
  refine .bind h.skipDimensions ?_
  clear h
  rintro _ σ s h
  refine .bind (h.eat .comma rfl rfl) ?_
  clear h
  rintro found σ s hfound
  cases found with
  | true =>
    obtain ⟨rest, hrest, h⟩ := hfound
    rw [hrest]
    exact .pure ⟨rest, Recognizer.separator_cons _ _, h⟩
  | false =>
    obtain ⟨hother, h⟩ := hfound
    exact .pure (.inl
      ⟨_, Recognizer.separator_of_head? (head?_ne_of_ne_cons hother), _, rfl, h⟩)

/-- Bounds are passed up to the last, and it is noticed whether there are any. -/
theorem Sees.skipBounds {primitive : Bool} (h : Sees x T us low ks σ s.cursor) :
    Answers (Lookahead.loop (fun intersection => do
      if ← Lookahead.eat .amp then
        if ← Lookahead.skipType then return .again true else return .done none
      else return .done (some (primitive && !intersection))) false) σ s
      (Reports x T us low ((Recognizer.more Recognizer.type .amp ks).map fun rest =>
        (primitive && ks.head? != some .amp, rest))) := by
  refine .loop (n := ks.length)
    (I := fun n intersection σ' c => ∃ ls : List TokenKind, ls.length = n ∧
      Recognizer.more Recognizer.type .amp ls = Recognizer.more Recognizer.type .amp ks ∧
        (ls = ks ∧ intersection = false ∨ ks.head? = some .amp ∧ intersection = true) ∧
          Sees x T us low ls σ' c)
    ⟨ks, rfl, rfl, .inl ⟨rfl, rfl⟩, h⟩ h.views.length_lt ?_
  clear h
  rintro n intersection σ s ⟨ls, rfl, hsame, hintersection, h⟩
  refine .bind (h.eat .amp rfl rfl) ?_
  clear h
  rintro found σ s hfound
  cases found with
  | false =>
    obtain ⟨hother, h⟩ := hfound
    have hamp : ls.head? ≠ some .amp := head?_ne_of_ne_cons hother
    rw [Recognizer.more_of_head? hamp] at hsame
    refine .pure ⟨ls, ?_, h⟩
    rw [← hsame, Option.map_some]
    rcases hintersection with ⟨rfl, rfl⟩ | ⟨hfirst, rfl⟩
    · rw [bne_iff_ne.mpr hamp]
      rfl
    · rw [hfirst]
      rfl
  | true =>
    obtain ⟨ls, rfl, h⟩ := hfound
    rw [Recognizer.more_cons, Recognizer.separated_eq Recognizer.shrinks_type] at hsame
    have hamp : ks.head? = some .amp := by
      rcases hintersection with ⟨rfl, -⟩ | ⟨hamp, -⟩
      · rfl
      · exact hamp
    refine .bind (follows_skipType h) ?_
    clear h
    rintro passed σ s hpassed
    cases passed with
    | false =>
      refine .pure ?_
      rw [hpassed.resolve_right hroom, Option.bind_none] at hsame
      rw [← hsame]
      rfl
    | true =>
      obtain ⟨rest, hrest, h⟩ := hpassed
      rw [hrest, Option.bind_some] at hsame
      have hle := Recognizer.shrinks_type hrest
      exact .pure ⟨rest.length, Nat.lt_succ_of_le hle, rest, rfl, hsame, .inr ⟨hamp, rfl⟩, h⟩

/-- The type of a cast is passed with all its bounds. -/
theorem Sees.skipCastType (h : Sees x T us low ks σ s.cursor) :
    Answers skipCastType σ s (Reports x T us low (Recognizer.castType ks)) := by
  refine .bind (follows_skipAnnotations h) ?_
  clear h
  rintro passed σ s hpassed
  cases passed with
  | false =>
    refine .pure ?_
    rw [Recognizer.castType, hpassed.resolve_right hroom, Option.bind_none]
    rfl
  | true =>
  obtain ⟨behind, hbehind, h⟩ := hpassed
  refine .bind h.atPrimitive ?_
  clear h
  rintro _ σ s ⟨rfl, h⟩
  refine .bind (follows_skipType h) ?_
  clear h
  rintro passed σ s hpassed
  cases passed with
  | false =>
    refine .pure ?_
    rw [Recognizer.castType, hbehind, Option.bind_some, hpassed.resolve_right hroom,
      Option.bind_none]
    rfl
  | true =>
    obtain ⟨first, hfirst, h⟩ := hpassed
    rw [Recognizer.castType, hbehind, Option.bind_some, hfirst, Option.bind_some]
    exact h.skipBounds hroom

end Room

/-! ### Operands of casts -/

/-- No operand of a cast starts with an angle. -/
theorem startsCastOperand_iff_of_shows {k : TokenKind} (h : Shows k ks) :
    startsCastOperand k = true ↔ (ks.headD .endOfInput).CanBeCast := by
  rw [← startsCastOperand_iff]
  rcases h with rfl | ⟨hangle, hgreater⟩
  · rfl
  · have hk : startsCastOperand k = false := by
      cases k <;> first | rfl | cases hangle
    rw [List.headD_eq_head?_getD, hgreater, hk]
    exact Iff.rfl

/-! ### Questions -/

/-- What stands in a group behind the bracket that opens it, and the bracket that closes it within
the budget of a lookahead. -/
structure IsGroup (content : List TokenKind) (closer : TokenKind) : Prop where
  isContent : IsContent content
  closes : closer.closesGroup = true
  length_lt : content.length < Limits.maxLookaheadTokens

/-- Behind the bracket that opens it, a group ends before the budget does. -/
theorem IsGroup.not_exceeds (h : IsGroup content closer) (rest : List TokenKind) :
    ¬ Exceeds ((content ++ closer :: rest).length + 1) (content ++ closer :: rest) := by
  rintro ⟨ks, ⟨front, d, heq, hfront⟩, hlt⟩
  have hlength := congrArg List.length heq
  simp only [List.length_append, List.length_cons] at hlength hlt
  have hle := h.length_lt
  -- What has been passed goes beyond the group, so it has closed the group.
  have hgroup : content ++ [closer] <+: content ++ closer :: rest := ⟨rest, by simp⟩
  have hpassed : front <+: content ++ closer :: rest := ⟨ks, heq.symm⟩
  obtain ⟨more, rfl⟩ := List.prefix_of_prefix_length_le hgroup hpassed (by
    simp only [List.length_append, List.length_cons, List.length_nil]
    omega)
  rw [List.append_assoc, List.singleton_append, h.isContent.not_closed h.closes] at hfront
  cases hfront

/-- A lookahead stands behind the bracket that opens a group. -/
def Enters (x : Tokenized) (us : List TokenKind) (σ : LookaheadState) (c : Cursor) : Prop :=
  Sees x (us.length + 1) us 0 us σ c

/-- Whether a group is closed by a parenthesis. -/
theorem Sees.checkParen (h : Sees x T us low ks σ s.cursor) {p : Prop}
    (hp : (∃ more, ks = .rightParen :: more) ↔ p) :
    Answers (Lookahead.check .rightParen) σ s fun b _ _ => b = true ↔ p :=
  (h.check .rightParen rfl).mono fun _ _ _ ⟨hiff, _⟩ => hiff.trans hp

/-- The parenthesis that closes a group is passed, also if the budget ends with it. -/
theorem Sees.eatParen (h : Sees x T us low ks σ s.cursor) :
    Answers (Lookahead.eat .rightParen) σ s fun b σ' c =>
      (b = true ↔ ∃ more, ks = .rightParen :: more) ∧
        ∀ more, ks = .rightParen :: more → Views x more σ' c := by
  refine .bind (h.check .rightParen rfl) ?_
  clear h
  rintro found σ s ⟨hparen, h⟩
  cases found with
  | false =>
    refine .pure ⟨hparen, fun more hmore => ?_⟩
    exact absurd (hparen.mpr ⟨more, hmore⟩) Bool.false_ne_true
  | true =>
    obtain ⟨more, rfl⟩ := hparen.mp rfl
    refine .bind (h.views.bump nofun) ?_
    rintro _ σ s ⟨-, hviews⟩
    refine .pure ⟨hparen, fun more' hmore => ?_⟩
    rwa [← (List.cons.inj hmore).2]

section Questions

variable (hgroup : IsGroup content closer) (h : Enters x (content ++ closer :: rest) σ s.cursor)

include hgroup h

/-- Whether a group holds names, of which there are as many as is asked for. -/
theorem answers_counting {f : Nat → Lookahead Bool} {p : Nat → Prop}
    (hf : ∀ {n ks σ} {s : ParserState},
      Sees x ((content ++ closer :: rest).length + 1) (content ++ closer :: rest) 0 ks σ s.cursor →
        Answers (f n) σ s fun b _ _ => b = true ↔ p n ∧ ∃ more, ks = .rightParen :: more) :
    Answers (skipIdentifierList >>= fun found =>
      match found with
      | some count => f count
      | none => pure false) σ s fun b _ _ =>
        b = true ↔ closer = .rightParen ∧ ∃ n, (n ≠ 0 ∧ p n) ∧ content = nameList n := by
  have hiff (n : Nat) :
      (∃ more, Recognizer.names (content ++ closer :: rest) = some (n, .rightParen :: more)) ↔
        closer = .rightParen ∧ n ≠ 0 ∧ content = nameList n :=
    Recognizer.names_iff hgroup.isContent hgroup.closes
  refine .bind (Sees.skipIdentifierList (hgroup.not_exceeds rest) h) ?_
  clear h
  rintro (_ | count) σ s hfound
  · refine .pure ⟨nofun, ?_⟩
    rintro ⟨hcloser, n, ⟨hn, -⟩, hcontent⟩
    obtain ⟨more, hnames⟩ := (hiff n).mpr ⟨hcloser, hn, hcontent⟩
    rw [hfound] at hnames
    cases hnames
  · obtain ⟨ks, hnames, h⟩ := hfound
    refine (hf h).mono ?_
    clear h
    rintro b _ _ hb
    rw [hb]
    constructor
    · rintro ⟨hp, more, rfl⟩
      obtain ⟨hcloser, hn, hcontent⟩ := (hiff count).mp ⟨more, hnames⟩
      exact ⟨hcloser, count, ⟨hn, hp⟩, hcontent⟩
    · rintro ⟨hcloser, n, ⟨hn, hp⟩, hcontent⟩
      obtain ⟨more, hnames'⟩ := (hiff n).mpr ⟨hcloser, hn, hcontent⟩
      rw [hnames] at hnames'
      cases hnames'
      exact ⟨hp, more, rfl⟩

/-- A group is found to hold names and commas, if any, exactly if it does. -/
theorem answers_holdsNames :
    Answers holdsNames σ s fun b _ _ => b = true ↔
      closer = .rightParen ∧ AreNames 0 content := by
  refine .bind (Sees.check h .rightParen rfl) ?_
  clear h
  rintro isEmpty σ s ⟨hiff, h⟩
  cases isEmpty with
  | true =>
    obtain ⟨more, heq⟩ := hiff.mp rfl
    have hempty : content ++ closer :: rest = [] ++ .rightParen :: more := heq
    obtain ⟨hcontent, hcloser, -⟩ := hgroup.isContent.unique hgroup.closes .nil rfl hempty
    exact .pure ⟨fun _ => ⟨hcloser, 0, Nat.le_refl 0, hcontent⟩, fun _ => rfl⟩
  | false =>
    refine (answers_counting (p := fun _ => True) hgroup h fun h =>
      h.checkParen (by rw [true_and])).mono ?_
    rintro b _ _ hb
    rw [hb]
    refine and_congr_right fun hcloser => exists_congr fun n => and_congr_left fun hcontent =>
      ⟨fun _ => Nat.zero_le n, fun _ => ⟨?_, trivial⟩⟩
    rintro rfl
    exact Bool.false_ne_true (hiff.mpr ⟨rest, by rw [hcontent, hcloser]; rfl⟩)

/-- A group is found to hold several names exactly if it holds two at least. -/
theorem answers_holdsSeveralNames :
    Answers holdsSeveralNames σ s fun b _ _ => b = true ↔
      closer = .rightParen ∧ AreNames 2 content := by
  refine (answers_counting (p := fun n => 2 ≤ n) hgroup h fun {n _ _ _} h => ?_).mono ?_
  · split
    · rename_i hle
      exact h.checkParen ⟨fun hmore => ⟨hle, hmore⟩, And.right⟩
    · rename_i hlt
      exact .pure ⟨nofun, fun hmore => absurd hmore.1 hlt⟩
  · rintro b _ _ hb
    rw [hb]
    exact and_congr_right fun _ => exists_congr fun n => and_congr_left fun _ =>
      ⟨And.right, fun hle => ⟨Nat.ne_zero_of_lt hle, hle⟩⟩

/-- A group is found to hold parameters exactly if they make up its content. -/
theorem answers_holdsParameters :
    Answers holdsParameters σ s fun b _ _ => b = true ↔
      closer = .rightParen ∧ AreParameters content := by
  have hroom := hgroup.not_exceeds rest
  have hiff : (∃ more, Recognizer.parameters (content ++ closer :: rest) =
      some (.rightParen :: more)) ↔ closer = .rightParen ∧ AreParameters content :=
    Recognizer.fills_parameters.passes_iff hgroup.isContent hgroup.closes
  refine .bind (follows_skipFormalParameters hroom h) ?_
  clear h
  rintro passed σ s hpassed
  rw [← hiff]
  cases passed with
  | false =>
    refine .pure ⟨nofun, ?_⟩
    rintro ⟨more, hmore⟩
    rw [hpassed.resolve_right hroom] at hmore
    cases hmore
  | true =>
    obtain ⟨ks, hks, h⟩ := hpassed
    refine h.checkParen ?_
    simp only [hks, Option.some.injEq]

/-- A group is found to be a cast exactly if it holds a type, and what comes behind can be cast to
that. -/
theorem answers_isCast :
    Answers isCast σ s fun b _ _ => b = true ↔
      closer = .rightParen ∧ IsIntersection content ∧
        (IsPrimitiveType content ∨ (rest.headD .endOfInput).CanBeCast) := by
  have hiff {primitive : Bool} {more : List TokenKind} :
      Recognizer.castType (content ++ closer :: rest) = some (primitive, .rightParen :: more) ↔
        (closer = .rightParen ∧ rest = more) ∧ IsIntersection content ∧
          (primitive = true ↔ IsPrimitiveType content) :=
    Recognizer.castType_iff hgroup.isContent hgroup.closes
  have hcast (hcloser : closer = .rightParen) (hcontent : IsIntersection content) :
      Recognizer.castType (content ++ closer :: rest) =
        some (decide (IsPrimitiveType content), .rightParen :: rest) :=
    hiff.mpr ⟨⟨hcloser, rfl⟩, hcontent, decide_eq_true_iff⟩
  refine .bind (Sees.skipCastType (hgroup.not_exceeds rest) h) ?_
  clear h
  rintro (_ | primitive) σ s hfound
  · refine .pure ⟨nofun, ?_⟩
    rintro ⟨hcloser, hcontent, -⟩
    rw [hcast hcloser hcontent] at hfound
    cases hfound
  obtain ⟨ks, hks, h⟩ := hfound
  dsimp only
  refine .bind h.eatParen ?_
  clear h
  rintro closed σ s ⟨hparen, hviews⟩
  cases closed with
  | false =>
    refine .pure ⟨nofun, ?_⟩
    rintro ⟨hcloser, hcontent, -⟩
    rw [hcast hcloser hcontent] at hks
    cases hks
    exact absurd (hparen.mpr ⟨rest, rfl⟩) Bool.false_ne_true
  | true =>
    obtain ⟨more, rfl⟩ := hparen.mp rfl
    obtain ⟨⟨rfl, rfl⟩, hcontent, hprimitive⟩ := hiff.mp hks
    cases primitive with
    | true => exact .pure ⟨fun _ => ⟨rfl, hcontent, .inl (hprimitive.mp rfl)⟩, fun _ => rfl⟩
    | false =>
      refine .bind (hviews rest rfl).kindAt_zero ?_
      rintro k σ s ⟨hshows, -⟩
      refine .pure ((startsCastOperand_iff_of_shows hshows).trans ?_)
      have hnot : ¬ IsPrimitiveType content := fun h => Bool.false_ne_true (hprimitive.mpr h)
      simp only [hcontent, hnot, false_or, true_and]

end Questions

/-! ### Decisions -/

/-- Whether an arrow comes behind a group. -/
theorem Views.beforeArrow (hgroup : IsGroup content closer) (hσ : σ.consumed = 0)
    (h : Views x (.leftParen :: (content ++ closer :: rest)) σ s.cursor) :
    Answers beforeArrow σ s fun b _ _ => b = true ↔ rest.headD .endOfInput = .arrow := by
  have hpassed : Recognizer.group 1 (content ++ closer :: rest) = some rest :=
    Recognizer.group_paren hgroup.isContent hgroup.closes rest
  have hle : σ.consumed + ((content ++ closer :: rest).length + 1) ≤
      (content ++ closer :: rest).length + 1 := by
    simp only [hσ, Nat.zero_add, Nat.le_refl]
  refine .bind (h.skipBalanced hle (Nat.zero_le _)) ?_
  rintro passed σ s hanswer
  cases passed with
  | false =>
    rcases hanswer with ⟨hnone, -⟩ | hexceeds
    · rw [hpassed] at hnone
      cases hnone
    · exact absurd hexceeds (hgroup.not_exceeds rest)
  | true =>
    obtain ⟨ks, hks, h⟩ := hanswer
    obtain rfl : rest = ks := Option.some.inj (hpassed.symm.trans hks)
    refine (h.check .arrow rfl).mono ?_
    rintro b _ _ ⟨hb, -⟩
    rw [hb]
    cases rest with
    | nil => exact ⟨nofun, nofun⟩
    | cons k ks =>
      exact ⟨fun ⟨more, heq⟩ => (List.cons.inj heq).1, fun heq => ⟨ks, congrArg (· :: ks) heq⟩⟩

/-- A question is asked behind the bracket that opens a group, and the lookahead may go back. -/
theorem Returns.asks {start : Cursor} {question : Lookahead Bool} {p : Prop}
    (h : Returns x (w :: ws) start s.cursor) [Walk (.marked start.position) question]
    (hquestion : ∀ {σ} {s : ParserState}, Enters x (kindsAhead ws) σ s.cursor →
      Answers question σ s fun b _ _ => b = true ↔ p) :
    Answers (Lookahead.inside start.position question) σ s fun b _ c =>
      (b = true ↔ p) ∧ Returns x (w :: ws) start c := by
  have hpassed (s : ParserState) (hfaces : s.cursor.Faces x (w :: ws)) :
      Answers (bump >>= fun _ => question) {} s fun b _ _ => b = true ↔ p := by
    refine .bind (Views.bump_outside rfl hfaces) ?_
    rintro _ _ s ⟨rfl, hfaces⟩
    exact hquestion ⟨.outside rfl hfaces, Nat.le_of_eq (Nat.add_comm _ _), Nat.zero_le _, .refl _⟩
  exact h.inside (P := fun b => b = true ↔ p) hpassed

/-- What a parenthesis opens is decided by the rules. -/
theorem answers_parenKind (hgroup : IsGroup content closer) (h : s.cursor.Faces x (w :: ws))
    (hw : w.kind = .leftParen) (hws : kindsAhead ws = content ++ closer :: rest) :
    Answers parenKind {} s fun kind _ _ =>
      kind = .byRules content closer (rest.headD .endOfInput) := by
  have hviews : Views x (.leftParen :: (content ++ closer :: rest)) {} s.cursor := by
    rw [← hws, ← hw, ← kindsAhead_cons ws (by rw [hw]; rfl)]
    exact .outside rfl h
  have hstart : Answers beforeArrow {} s fun b _ c =>
      (b = true ↔ rest.headD .endOfInput = .arrow) ∧ Returns x (w :: ws) s.cursor c :=
    (Returns.start h).walk (P := fun b => b = true ↔ rest.headD .endOfInput = .arrow)
      (hviews.beforeArrow hgroup rfl)
  refine .position (.bind hstart ?_)
  rintro arrow σ s' ⟨harrow, hreturns⟩
  unfold ParenKind.byRules
  cases arrow with
  | true =>
    rw [if_pos (harrow.mp rfl)]
    refine .bind (hreturns.asks fun henters => answers_holdsNames hgroup (hws ▸ henters)) ?_
    rintro b σ s' ⟨hb, -⟩
    cases b with
    | true => exact .pure (if_pos (hb.mp rfl)).symm
    | false => exact .pure (if_neg fun h => Bool.false_ne_true (hb.mpr h)).symm
  | false =>
  rw [if_neg fun h => Bool.false_ne_true (harrow.mpr h)]
  refine .bind (hreturns.asks fun henters => answers_holdsSeveralNames hgroup (hws ▸ henters)) ?_
  clear hreturns
  rintro b σ s' ⟨hb, hreturns⟩
  cases b with
  | true => exact .pure (if_pos (hb.mp rfl)).symm
  | false =>
  rw [if_neg fun h => Bool.false_ne_true (hb.mpr h)]
  refine .bind (hreturns.asks fun henters => answers_holdsParameters hgroup (hws ▸ henters)) ?_
  clear hreturns
  rintro b σ s' ⟨hb, hreturns⟩
  cases b with
  | true => exact .pure (if_pos (hb.mp rfl)).symm
  | false =>
  rw [if_neg fun h => Bool.false_ne_true (hb.mpr h)]
  refine .bind (hreturns.asks fun henters => answers_isCast hgroup (hws ▸ henters)) ?_
  rintro b σ s' ⟨hb, -⟩
  cases b with
  | true => exact .pure (if_pos (hb.mp rfl)).symm
  | false => exact .pure (if_neg fun h => Bool.false_ne_true (hb.mpr h)).symm

end Lookahead

/-! ### Classification -/

/-- A production that ends where it has started has at most read ahead. -/
theorem Production.ahead_of_position_eq {α : Type} {p : Parser α} (hp : Production .free p)
    {s s' : ParserState} {a : α} (hs : s.cursor.Settled) (hrun : p s = (.ok a, s'))
    (hposition : s'.cursor.position = s.cursor.position) : s.cursor.Ahead s'.cursor := by
  have hcourse := (hp.runs hs trivial).course
  rw [hrun] at hcourse
  have hahead := hcourse.ahead_restore hs nofun
  rwa [← hposition, hcourse.settled.restore_position] at hahead

/-- What a parenthesis opens is decided by the rules, wherever it stands in a text, and if its group
ends within the budget of a lookahead. Nothing is taken, but more of the text may have been read. -/
theorem paren_classified {x : Tokenized} {s : ParserState} {w : Word} {ws : List Word}
    {content rest : List TokenKind} {closer : TokenKind} (h : s.cursor.Faces x (w :: ws))
    (hw : w.kind = .leftParen) (hws : kindsAhead ws = content ++ closer :: rest)
    (hcontent : IsContent content) (hcloser : closer.closesGroup = true)
    (hbudget : content.length < Limits.maxLookaheadTokens) :
    ∃ s', Parser.classifyParen s =
        (.ok (.byRules content closer (rest.headD .endOfInput)), s') ∧
      s.cursor.Ahead s'.cursor := by
  have hgroup : Lookahead.IsGroup content closer := ⟨hcontent, hcloser, hbudget⟩
  have hgives : Parser.Gives (fun _ => False) Parser.classifyParen s fun kind c =>
      kind = .byRules content closer (rest.headD .endOfInput) ∧
        c.position = s.cursor.position := by
    refine .bind (Parser.gives_peek h 0) ?_
    rintro t s₁ ⟨-, hfaces, hposition⟩
    refine .bind (Lookahead.gives_run
      (P := (· = ParenKind.byRules content closer (rest.headD .endOfInput)))
      hfaces (Lookahead.answers_parenKind hgroup hfaces hw hws)) ?_
    rintro _ s₂ ⟨rfl, -, hposition'⟩
    refine .bind (Q := fun _ c => c = s₂.cursor) (.of_eq rfl rfl) ?_
    rintro seen s₃ hcursor
    have hback : s₃.cursor.position = s.cursor.position := by
      rw [hcursor, hposition', hposition]
    split
    · exact .of_eq (t := s₃.note _) rfl ⟨rfl, hback⟩
    · exact .pure ⟨rfl, hback⟩
  obtain ⟨kind, s', hrun, rfl, hposition⟩ := hgives.exists_eq
  have hproduction : Production .free Parser.classifyParen := inferInstance
  exact ⟨s', hrun, hproduction.ahead_of_position_eq h.on.settled hrun hposition⟩

/-- An intersection before a name is a cast, also where one token closes two angles. -/
theorem paren_classified_intersection :
    ∃ s', Parser.classifyParen (.ofText "(A<B<C>> & D) x") = (.ok .cast, s') ∧
      (ParserState.ofText "(A<B<C>> & D) x").cursor.Ahead s'.cursor := by
  let x : Tokenized := ⟨"(A<B<C>> & D) x", {}, by decide +kernel⟩
  have hon : (Cursor.ofText x.text x.preferences).On x :=
    ⟨Cursor.settled_ofText _ _, Cursor.over_ofText _ _⟩
  obtain ⟨all, hfaces⟩ := hon.exists_faces
  have hkinds : all.map Word.kind = [.leftParen, .identifier, .less, .identifier, .less,
      .identifier, .shiftRight, .amp, .identifier, .rightParen, .identifier] := by
    have hwords := congrArg (List.map Word.kind) hfaces.words_eq
    rw [List.map_append, List.map_map] at hwords
    have hupcoming : ((Cursor.ofText x.text x.preferences).upcoming x).map (·.kind) =
        [.leftParen, .identifier, .less, .identifier, .less, .identifier, .shiftRight, .amp,
          .identifier, .rightParen, .identifier] ++ [.endOfInput] := by decide +kernel
    exact (List.append_cancel_right (hupcoming.symm.trans hwords)).symm
  obtain ⟨w, ws, rfl, hw, hws⟩ := List.map_eq_cons_iff.mp hkinds
  have hahead : kindsAhead ws = [.identifier, .less, .identifier, .less, .identifier, .greater,
      .greater, .amp, .identifier] ++ .rightParen :: [.identifier] := by
    rw [kindsAhead, ← List.flatMap_map, hws]
    rfl
  have hstart : (ParserState.ofText x.text).cursor.Faces x (w :: ws) := hfaces.withJournal _
  exact paren_classified hstart hw hahead rfl rfl (by decide)

end JavaSyntax
