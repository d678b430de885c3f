import JavaSyntax.Proofs.Grammar.KindsAhead

/-!
# Types ahead

The lookahead that passes types does what the recognizer of types does on the kinds ahead, as
long as its budget lasts. It may also say "no" where the budget is used up.
-/

namespace JavaSyntax

namespace Lookahead

open JavaSyntax.Parser (Step Gives)

variable {x : Tokenized} {T low : Nat} {us ks : List TokenKind} {σ : LookaheadState}
  {s : ParserState} {k : TokenKind}

/-! ### What recognizers pass -/

/-- A lookahead answers what a recognizer comes to, or "no" because the budget is used up. -/
def Tells (x : Tokenized) (T : Nat) (us : List TokenKind) (low : Nat)
    (result : Option (List TokenKind)) (b : Bool) (σ : LookaheadState) (c : Cursor) : Prop :=
  match b with
  | true => ∃ rest, result = some rest ∧ Sees x T us low rest σ c
  | false => result = none ∨ Exceeds T us

/-- A lookahead does what a recognizer does on the kinds ahead. -/
def Follows (x : Tokenized) (T : Nat) (us : List TokenKind) (low : Nat) (w : Lookahead Bool)
    (r : Recognizer) : Prop :=
  ∀ {ks : List TokenKind} {σ : LookaheadState} {s : ParserState}, Sees x T us low ks σ s.cursor →
    Answers w σ s (Tells x T us low (r ks))

/-- What is told at a depth holds below it. -/
theorem Tells.lower {low' : Nat} {result : Option (List TokenKind)} {b : Bool} {c : Cursor}
    (h : Tells x T us low result b σ c) (hlow : low' ≤ low) : Tells x T us low' result b σ c := by
  cases b with
  | false => exact h
  | true =>
    obtain ⟨rest, hrest, h⟩ := h
    exact ⟨rest, hrest, h.lower hlow⟩

/-- A step of a loop does what a step of a recognizer does, or ends the loop with "no" because the
budget is used up. -/
def TellsStep (x : Tokenized) (T : Nat) (us : List TokenKind) (low : Nat)
    (result : Step (List TokenKind) (Option (List TokenKind))) (r : Step Unit Bool)
    (σ : LookaheadState) (c : Cursor) : Prop :=
  match r with
  | .again _ => ∃ rest, result = .again rest ∧ Sees x T us low rest σ c
  | .done b => (∃ o, result = .done o ∧ Tells x T us low o b σ c) ∨ b = false ∧ Exceeds T us

/-- What is not passed ends the loop with "no". -/
theorem Tells.stopped {result : Option (List TokenKind)}
    {r : Step (List TokenKind) (Option (List TokenKind))} {c c' : Cursor} {σ' : LookaheadState}
    (h : Tells x T us low result false σ c) (hr : result = none → r = .done none) :
    TellsStep x T us low r (.done false) σ' c' := by
  rcases h with hnone | hexceeds
  · exact .inl ⟨none, hr hnone, .inl rfl⟩
  · exact .inr ⟨rfl, hexceeds⟩

/-- A loop does what a repetition does if its steps do so. -/
theorem Sees.loop {step : Unit → Lookahead (Step Unit Bool)}
    {rstep : RecognizerStep}
    (hshortens : Recognizer.Shortens rstep) (h : Sees x T us low ks σ s.cursor)
    (hstep : ∀ {ks : List TokenKind} {σ : LookaheadState} {s : ParserState},
      Sees x T us low ks σ s.cursor →
        Answers (step ()) σ s (TellsStep x T us low (rstep ks))) :
    Answers (loop step ()) σ s (Tells x T us low (Recognizer.repeated rstep ks)) := by
  refine .loop (n := ks.length)
    (I := fun n _ σ' c => ∃ ls : List TokenKind, ls.length = n ∧
      Recognizer.repeated rstep ls = Recognizer.repeated rstep ks ∧ Sees x T us low ls σ' c)
    ⟨ks, rfl, rfl, h⟩ h.views.length_lt ?_
  rintro n _ σ s ⟨ls, rfl, hsame, h⟩
  refine (hstep h).mono ?_
  rintro (_ | b) σ' c htells
  · obtain ⟨rest, hrest, hsees⟩ := htells
    rw [Recognizer.repeated_eq hshortens, hrest] at hsame
    exact ⟨rest.length, hshortens ls rest hrest, rest, rfl, hsame, hsees⟩
  · rcases htells with ⟨o, ho, htells⟩ | ⟨rfl, hexceeds⟩
    · rw [Recognizer.repeated_eq hshortens, ho] at hsame
      exact hsame ▸ htells
    · exact .inr hexceeds

/-! ### Dimensions and names -/

/-- The lookahead passes the dimensions that the recognizer passes. -/
theorem Sees.skipDimensions (h : Sees x T us low ks σ s.cursor) :
    Answers skipDimensions σ s fun _ σ' c => Sees x T us low (Recognizer.dimensions ks) σ' c := by
  refine .loop (n := ks.length)
    (I := fun n _ σ' c => ∃ ls : List TokenKind, ls.length = n ∧
      Recognizer.dimensions ls = Recognizer.dimensions ks ∧ Sees x T us low ls σ' c)
    ⟨ks, rfl, rfl, h⟩ h.views.length_lt ?_
  rintro n any σ s ⟨ls, rfl, hsame, h⟩
  refine .bind (h.checkPair .leftBracket .rightBracket rfl rfl) ?_
  rintro found σ s ⟨hiff, h⟩
  cases found with
  | false =>
    refine .pure ?_
    rw [← hsame, Recognizer.dimensions]
    · exact h
    · rintro rest rfl
      exact Bool.false_ne_true (hiff.mpr ⟨rest, rfl⟩)
  | true =>
    obtain ⟨rest, rfl⟩ := hiff.mp rfl
    refine .bind (h.views.bump nofun) ?_
    rintro _ σ' s ⟨hσ, hviews⟩
    refine .bind (hviews.bump nofun) ?_
    rintro _ σ'' s ⟨rfl, hviews⟩
    have hlt : rest.length < (TokenKind.leftBracket :: .rightBracket :: rest).length :=
      Nat.lt_succ_of_lt (Nat.lt_succ_self _)
    refine .pure ⟨rest.length, hlt, rest, rfl, hsame, hviews, ?_, ?_, ?_⟩
    · have hle := h.consumed_le
      simp only [List.length_cons] at hle
      subst hσ
      change σ.consumed + 1 + 1 + rest.length ≤ T
      omega
    · have hlow := h.le_consumed
      subst hσ
      change low ≤ σ.consumed + 1 + 1
      omega
    · exact h.within.trans ⟨[.leftBracket, .rightBracket], 0, rfl, rfl⟩

/-- A name is passed, or nothing is. -/
theorem Sees.skipQualifiedName (h : Sees x T us low ks σ s.cursor) :
    Answers skipQualifiedName σ s fun b σ' c =>
      match b with
      | true => ∃ rest, Recognizer.name ks = some rest ∧ Sees x T us low rest σ' c
      | false => Recognizer.name ks = none ∧ Sees x T us low ks σ' c := by
  refine .bind (h.eat .identifier rfl rfl) ?_
  clear h
  rintro found σ s hfound
  cases found with
  | false =>
    obtain ⟨hother, h⟩ := hfound
    refine .pure ⟨?_, h⟩
    unfold Recognizer.name
    split
    · exact absurd rfl (hother _)
    · rfl
  | true =>
    obtain ⟨ks, rfl, h⟩ := hfound
    refine .loop (n := ks.length)
      (I := fun n _ σ' c => ∃ ls : List TokenKind, ls.length = n ∧
        Recognizer.dotted ls = Recognizer.dotted ks ∧ Sees x T us low ls σ' c)
      ⟨ks, rfl, rfl, h⟩ h.views.length_lt ?_
    rintro n _ σ s ⟨ls, rfl, hsame, h⟩
    refine .bind (h.checkPair .dot .identifier rfl rfl) ?_
    rintro found σ s ⟨hiff, h⟩
    cases found with
    | false =>
      refine .pure ⟨Recognizer.dotted ks, rfl, ?_⟩
      rw [← hsame, Recognizer.dotted]
      · exact h
      · rintro rest rfl
        exact Bool.false_ne_true (hiff.mpr ⟨rest, rfl⟩)
    | true =>
      obtain ⟨rest, rfl⟩ := hiff.mp rfl
      refine .bind (h.bump nofun rfl) ?_
      rintro _ σ s h
      refine .bind (h.bump nofun rfl) ?_
      rintro _ σ s h
      have hlt : rest.length < (TokenKind.dot :: .identifier :: rest).length :=
        Nat.lt_succ_of_lt (Nat.lt_succ_self _)
      exact .pure ⟨rest.length, hlt, rest, rfl, hsame, h.lower (by omega)⟩

/-! ### Groups -/

/-- A token is passed at once in a group, with all angles that it has. -/
theorem group_singles_append (depth : Nat) (k : TokenKind) (ks : List TokenKind) :
    Recognizer.group depth (k.singles ++ ks) = match balance depth k with
      | .again depth => Recognizer.group depth ks
      | .done _ => some ks := by
  cases k <;> rfl

/-- The depth of a group is one more than the number of groups open inside of it. -/
theorem openGroups_singles {d depth : Nat} {k : TokenKind} (h : balance (d + 1) k = .again depth) :
    ∃ d', depth = d' + 1 ∧ openGroups d k.singles = some d' := by
  cases hangle : k.isAngle with
  | true =>
    obtain ⟨n, hn⟩ := TokenKind.singles_eq_replicate hangle
    have hdepth : depth = d + 1 := by
      cases k <;> first | (cases h; rfl) | nomatch hangle
    refine ⟨d, hdepth, ?_⟩
    rw [hn]
    generalize n + 1 = m
    induction m with
    | zero => rfl
    | succ m ih => exact ih
  | false =>
    rw [TokenKind.singles_of_isAngle hangle, openGroups]
    rw [Recognizer.balance_eq] at h
    by_cases hopens : k.opensGroup = true
    · rw [if_pos hopens] at h ⊢
      cases h
      exact ⟨d + 1, rfl, rfl⟩
    rw [if_neg hopens] at h ⊢
    by_cases hcloses : k.closesGroup = true
    · rw [if_pos hcloses] at h ⊢
      split at h
      · cases h
      · cases h
        rw [if_neg (by omega)]
        exact ⟨d - 1, by omega, rfl⟩
    · rw [if_neg hcloses] at h ⊢
      cases h
      exact ⟨d, rfl, rfl⟩

/-- A group has been passed up to some words, at some depth. -/
structure InGroup (x : Tokenized) (T low : Nat) (inner : List TokenKind) (depth : Nat)
    (ws : List Word) (σ : LookaheadState) (c : Cursor) : Prop where
  pending_eq : σ.pending = 0
  faces : c.Faces x ws
  consumed_le : σ.consumed + (kindsAhead ws).length ≤ T
  le_consumed : low ≤ σ.consumed
  group_eq : Recognizer.group depth (kindsAhead ws) = Recognizer.group 1 inner
  place : depth = 0 ∧ kindsAhead ws = .leftParen :: inner ∨
    ∃ front d, inner = front ++ kindsAhead ws ∧ openGroups 0 front = some d ∧ depth = d + 1

namespace InGroup

variable {depth : Nat} {inner : List TokenKind} {w : Word} {ws : List Word} {c c' : Cursor}

/-- Where a group has been passed up to its middle or end, no group around it has been closed. -/
theorem exceeds (h : InGroup x T low inner depth ws σ c)
    (hexhausted : Limits.maxLookaheadTokens < σ.consumed) : Exceeds T inner := by
  have hle := h.consumed_le
  rcases h.place with ⟨-, hkinds⟩ | ⟨front, d, hfront, hopen, -⟩
  · rw [hkinds, List.length_cons] at hle
    exact ⟨inner, .refl inner, by omega⟩
  · exact ⟨kindsAhead ws, ⟨front, d, hfront, hopen⟩, by omega⟩

/-- The end of the text is reached inside of the group. -/
theorem ended (h : InGroup x T low inner depth [] σ c) :
    Recognizer.group 1 inner = none ∧ Sees x T inner low [] σ c := by
  refine ⟨h.group_eq.symm, .outside h.pending_eq h.faces, h.consumed_le, h.le_consumed, ?_⟩
  rcases h.place with ⟨-, hkinds⟩ | ⟨front, d, hfront, hopen, -⟩
  · cases hkinds
  · exact ⟨front, d, hfront, hopen⟩

/-- Behind a token that does not close the group, the group goes on. -/
theorem again (h : InGroup x T low inner depth (w :: ws) σ c) (hfaces : c'.Faces x ws) {n : Nat}
    (hbalance : balance depth w.kind = .again n) :
    InGroup x T low inner n ws (onward σ) c' := by
  have hgroup := h.group_eq
  have hle := h.consumed_le
  rw [kindsAhead, List.flatMap_cons] at hgroup hle
  rw [group_singles_append, hbalance] at hgroup
  refine ⟨rfl, hfaces, ?_, Nat.le_succ_of_le h.le_consumed, hgroup, .inr ?_⟩
  · have hpos := List.length_pos_iff.mpr (w.kind.singles_ne_nil)
    rw [List.length_append] at hle
    change σ.consumed + 1 + (ws.flatMap (·.kind.singles)).length ≤ T
    omega
  rcases h.place with ⟨rfl, hkinds⟩ | ⟨front, d, hfront, hopen, rfl⟩
  · obtain ⟨hkind, -, rfl⟩ := kindsAhead_eq_cons hkinds (by decide)
    rw [hkind] at hbalance
    cases hbalance
    exact ⟨[], 0, rfl, rfl, rfl⟩
  · obtain ⟨d', rfl, hopen'⟩ := openGroups_singles hbalance
    refine ⟨front ++ w.kind.singles, d', ?_, ?_, rfl⟩
    · rw [hfront, List.append_assoc]
      rfl
    · rw [openGroups_append, hopen]
      exact hopen'

/-- The token that closes the group is passed. -/
theorem done (h : InGroup x T low inner depth (w :: ws) σ c) (hfaces : c'.Faces x ws) {b : Bool}
    (hbalance : balance depth w.kind = .done b) :
    b = true ∧ Recognizer.group 1 inner = some (kindsAhead ws) ∧
      Sees x T (.leftParen :: inner) low (kindsAhead ws) (onward σ) c' := by
  have hgroup := h.group_eq
  have hle := h.consumed_le
  rw [kindsAhead, List.flatMap_cons] at hgroup hle
  rw [group_singles_append, hbalance] at hgroup
  have hb : b = true := by
    rw [Recognizer.balance_eq] at hbalance
    split at hbalance
    · cases hbalance
    split at hbalance
    · split at hbalance <;> cases hbalance
      rfl
    · cases hbalance
  refine ⟨hb, hgroup.symm, .outside rfl hfaces, ?_, Nat.le_succ_of_le h.le_consumed, ?_⟩
  · have hpos := List.length_pos_iff.mpr (w.kind.singles_ne_nil)
    rw [List.length_append] at hle
    change σ.consumed + 1 + (ws.flatMap (·.kind.singles)).length ≤ T
    omega
  · exact Recognizer.within_of_group hgroup.symm

end InGroup

/-- A group is passed from its parenthesis to its end, unless the text or the budget ends before. -/
theorem Views.skipBalanced {inner : List TokenKind} (h : Views x (.leftParen :: inner) σ s.cursor)
    (hle : σ.consumed + (inner.length + 1) ≤ T) (hlow : low ≤ σ.consumed) :
    Answers skipBalanced σ s fun b σ' c =>
      match b with
      | true => ∃ rest, Recognizer.group 1 inner = some rest ∧
          Sees x T (.leftParen :: inner) low rest σ' c
      | false => (Recognizer.group 1 inner = none ∧ Sees x T inner low [] σ' c) ∨
          Exceeds T inner := by
  obtain ⟨hσ, w, ws, hfaces, hw, hangle, rfl⟩ := h.exists_faces nofun
  have hkinds : kindsAhead (w :: ws) = .leftParen :: kindsAhead ws := by
    rw [kindsAhead_cons ws (hw ▸ hangle), hw]
  unfold Answers
  rw [skipBalanced_eq hσ]
  refine Gives.loop (n := (w :: ws).length)
    (I := fun n r c => ∃ vs, vs.length = n ∧ InGroup x T low (kindsAhead ws) r.1 vs r.2 c)
    ⟨w :: ws, rfl, hσ, hfaces, ?_, hlow, ?_, .inl ⟨rfl, hkinds⟩⟩ ?_ ?_
  · rwa [hkinds]
  · rw [hkinds]
    rfl
  · exact Parser.words_lt_loopBound hfaces
  rintro n ⟨depth, σ⟩ s ⟨vs, rfl, h⟩
  unfold balancedStep
  split
  · rename_i hexhausted
    exact .pure (.inr (h.exceeds hexhausted))
  refine .bind (Parser.gives_peekKind h.faces 0) ?_
  rintro _ s ⟨rfl, hfaces, -⟩
  cases vs with
  | nil =>
    have hended := InGroup.ended (c := s.cursor) { h with faces := hfaces }
    exact .pure (.inl hended)
  | cons v vs =>
    rw [wordAt_cons_zero, if_neg (hfaces.kind_ne_endOfInput List.mem_cons_self)]
    refine .bind (Parser.gives_advance hfaces (hfaces.kind_ne_endOfInput List.mem_cons_self)) ?_
    rintro token s ⟨-, hfaces⟩
    refine .pure ?_
    dsimp only
    cases hbalance : balance depth v.kind with
    | again n => exact ⟨vs.length, Nat.lt_succ_self _, vs, rfl, h.again hfaces hbalance⟩
    | done b =>
      obtain ⟨rfl, hgroup, hsees⟩ := h.done hfaces hbalance
      exact ⟨kindsAhead vs, hgroup, hsees⟩

/-! ### Annotations -/

/-- The lookahead finds an annotation where the recognizer does. -/
theorem Sees.atAnnotation (h : Sees x T us low ks σ s.cursor) :
    Answers atAnnotation σ s fun b σ' c =>
      b = Recognizer.atAnnotation ks ∧ Sees x T us low ks σ' c := by
  refine .bind (h.check .at rfl) ?_
  clear h
  rintro found σ s ⟨hiff, h⟩
  cases found with
  | false =>
    refine .pure ⟨?_, h⟩
    unfold Recognizer.atAnnotation
    split
    · rfl
    · exact hiff.mpr ⟨_, rfl⟩
    · rfl
  | true =>
    obtain ⟨ks, rfl⟩ := hiff.mp rfl
    refine .bind (h.kindAt_one nofun) ?_
    rintro k σ s ⟨hshows, h⟩
    refine .pure ⟨?_, h⟩
    rw [bne, hshows.beq_eq rfl]
    unfold Recognizer.atAnnotation
    split
    · rename_i hks
      rw [(List.cons.inj hks).2]
      rfl
    · rename_i hinterface hks
      obtain ⟨-, rfl⟩ := List.cons.inj hks
      rw [Bool.not_eq_true', beq_eq_false_iff_ne]
      intro hhead
      cases ks with
      | nil => cases hhead
      | cons k ks =>
        obtain rfl : k = _ := hhead
        exact hinterface ks rfl
    · rename_i hother
      exact absurd rfl (hother ks)

/-- An annotation is passed. A broken one is passed as far as it is in order. -/
theorem Sees.skipAnnotation (h : Sees x T us low (.at :: ks) σ s.cursor) :
    Answers skipAnnotation σ s fun b σ' c =>
      match b with
      | true => ∃ rest, Recognizer.annotationUse ks = some rest ∧ Sees x T us low rest σ' c
      | false => (Recognizer.annotationUse ks = none ∧
          Sees x T us low (Recognizer.broken ks) σ' c) ∨ Exceeds T us := by
  refine .bind (h.bump nofun rfl) ?_
  clear h
  rintro _ σ s h
  replace h := h.lower (Nat.le_succ low)
  refine .bind h.skipQualifiedName ?_
  clear h
  rintro found σ s hfound
  cases found with
  | false =>
    obtain ⟨hname, h⟩ := hfound
    refine .pure (.inl ⟨?_, ?_⟩)
    · rw [Recognizer.annotationUse, hname, Option.bind_none]
    · rwa [Recognizer.broken, hname]
  | true =>
    obtain ⟨rest, hname, h⟩ := hfound
    rw [Recognizer.annotationUse, hname, Option.bind_some]
    refine .bind (h.check .leftParen rfl) ?_
    clear h
    rintro found σ s ⟨hiff, h⟩
    cases found with
    | false =>
      refine .pure ⟨rest, ?_, h⟩
      unfold Recognizer.optionalGroup
      split
      · exact absurd (hiff.mpr ⟨_, rfl⟩) Bool.false_ne_true
      · rfl
    | true =>
      obtain ⟨inner, rfl⟩ := hiff.mp rfl
      refine (h.views.skipBalanced h.consumed_le h.le_consumed).mono ?_
      rintro b σ' c hpassed
      cases b with
      | true =>
        obtain ⟨behind, hgroup, hsees⟩ := hpassed
        exact ⟨behind, hgroup, hsees.around h.within⟩
      | false =>
        have hinner := h.within.tail rfl
        rcases hpassed with ⟨hgroup, hsees⟩ | hexceeds
        · refine .inl ⟨hgroup, ?_⟩
          rw [Recognizer.broken, hname]
          exact hsees.around hinner
        · exact .inr (hexceeds.around hinner)

/-- The lookahead passes the annotations that the recognizer passes. -/
theorem follows_skipAnnotations : Follows x T us low skipAnnotations Recognizer.annotations := by
  intro ks σ s h
  refine h.loop Recognizer.shortens_annotationStep ?_
  clear h
  intro ks σ s h
  refine .bind h.atAnnotation ?_
  clear h
  rintro found σ s ⟨hfound, h⟩
  rw [Recognizer.annotationStep, ← hfound]
  cases found with
  | false => exact .pure (.inl ⟨some ks, rfl, ks, rfl, h⟩)
  | true =>
    obtain ⟨ks, rfl⟩ := Recognizer.exists_eq_at hfound.symm
    refine .bind h.skipAnnotation ?_
    clear h
    rintro passed σ s hpassed
    cases passed with
    | false =>
      refine .pure ?_
      rcases hpassed with ⟨hnone, -⟩ | hexceeds
      · exact .inl ⟨none, by rw [List.tail_cons, hnone]; rfl, .inl rfl⟩
      · exact .inr ⟨rfl, hexceeds⟩
    | true =>
      obtain ⟨rest, hrest, h⟩ := hpassed
      exact .pure ⟨rest, by rw [List.tail_cons, hrest]; rfl, h⟩

/-! ### Arguments of types -/

section Arguments

variable {skip : Lookahead Bool} {t : Recognizer}

/-- The lookahead passes an argument if the recognizer does and types are followed. -/
theorem follows_skipTypeArgument (hskip : Follows x T us low skip t) :
    Follows x T us low (skipTypeArgument skip) (Recognizer.argument t) := by
  intro ks σ s h
  refine .bind (h.eat .question rfl rfl) ?_
  clear h
  rintro found σ s hfound
  cases found with
  | false =>
    obtain ⟨hother, h⟩ := hfound
    have hargument : Recognizer.argument t ks = t ks := by
      unfold Recognizer.argument
      split
      · exact absurd rfl (hother _)
      · rfl
    rw [hargument]
    exact hskip h
  | true =>
    obtain ⟨rest, rfl, h⟩ := hfound
    refine .bind h.kindAt_zero ?_
    clear h
    rintro k σ s ⟨hshows, h⟩
    rw [Recognizer.argument]
    split
    · obtain ⟨rest, rfl⟩ := hshows.exists_eq_cons rfl
      refine .bind (h.bump (by decide) rfl) ?_
      clear h
      rintro _ σ s h
      exact hskip (h.lower (Nat.le_succ low))
    · obtain ⟨rest, rfl⟩ := hshows.exists_eq_cons rfl
      refine .bind (h.bump (by decide) rfl) ?_
      clear h
      rintro _ σ s h
      exact hskip (h.lower (Nat.le_succ low))
    · rename_i hextends hsuper
      refine .pure ⟨rest, ?_, h⟩
      unfold Recognizer.bound
      split
      · exact absurd (hshows.eq_of_cons (by decide)) hextends
      · exact absurd (hshows.eq_of_cons (by decide)) hsuper
      · rfl

/-- The arguments behind a `<` are passed with the commas between them. -/
theorem answers_skipArguments (hskip : Follows x T us low skip t) (ht : Recognizer.Shrinks t)
    (h : Sees x T us low ks σ s.cursor) :
    Answers (loop (fun _ => do
      if ← exhausted then return .done false
      if !(← skipAnnotations) then return .done false
      if !(← skipTypeArgument skip) then return .done false
      if ← eat .comma then return .again ()
      return .done (← bumpClosingAngle)) ()) σ s
      (Tells x T us low (Recognizer.repeated (Recognizer.argumentStep t) ks)) := by
  refine h.loop (Recognizer.shortens_argumentStep ht) ?_
  clear h
  intro ks σ s h
  refine .bind h.exhausted ?_
  clear h
  rintro isExhausted σ s hexhausted
  cases isExhausted with
  | true => exact .pure (.inr ⟨rfl, hexhausted⟩)
  | false =>
  refine .bind (follows_skipAnnotations hexhausted) ?_
  clear hexhausted
  rintro passed σ s hpassed
  cases passed with
  | false =>
    refine .pure (hpassed.stopped fun hnone => ?_)
    rw [Recognizer.argumentStep, hnone]
    rfl
  | true =>
  obtain ⟨behind, hbehind, h⟩ := hpassed
  refine .bind (follows_skipTypeArgument hskip h) ?_
  clear h
  rintro passed σ s hpassed
  cases passed with
  | false =>
    refine .pure (hpassed.stopped fun hnone => ?_)
    rw [Recognizer.argumentStep, hbehind, Option.bind_some, hnone]
  | true =>
  obtain ⟨rest, hrest, h⟩ := hpassed
  have hargument : (Recognizer.annotations ks).bind (Recognizer.argument t) = some rest := by
    rw [hbehind, Option.bind_some, hrest]
  refine .bind (h.eat .comma rfl rfl) ?_
  clear h
  rintro found σ s hfound
  cases found with
  | true =>
    obtain ⟨rest, rfl, h⟩ := hfound
    exact .pure ⟨rest, Recognizer.argumentStep_eq_again t hargument, h⟩
  | false =>
    obtain ⟨hother, h⟩ := hfound
    refine .bind h.bumpClosingAngle ?_
    clear h
    rintro b σ s hclosed
    refine .pure (.inl ⟨_, Recognizer.argumentStep_eq_done t hargument hother, ?_⟩)
    cases hangle : Recognizer.closingAngle rest with
    | none =>
      rw [hangle] at hclosed
      obtain ⟨rfl, -⟩ := hclosed
      exact .inl rfl
    | some behind =>
      rw [hangle] at hclosed
      obtain ⟨rfl, h⟩ := hclosed
      exact ⟨behind, rfl, h⟩

/-- The arguments of a type are passed from the `<` on. -/
theorem answers_skipTypeArguments (hskip : Follows x T us (low + 1) skip t)
    (ht : Recognizer.Shrinks t) (h : Sees x T us low (.less :: ks) σ s.cursor) :
    Answers (skipTypeArguments skip) σ s (Tells x T us (low + 1) (Recognizer.arguments t ks)) := by
  unfold skipTypeArguments
  refine .bind (h.bump nofun rfl) ?_
  clear h
  rintro _ σ s h
  refine .bind (h.note rfl rfl) ?_
  clear h
  rintro _ σ s h
  refine .bind h.bumpClosingAngle ?_
  clear h
  rintro closed σ s hclosed
  cases hangle : Recognizer.closingAngle ks with
  | some rest =>
    rw [hangle] at hclosed
    obtain ⟨rfl, h⟩ := hclosed
    rw [Recognizer.eq_of_closingAngle hangle]
    exact .pure ⟨rest, rfl, h⟩
  | none =>
    rw [hangle] at hclosed
    obtain ⟨rfl, h⟩ := hclosed
    rw [Recognizer.arguments_of_closingAngle t hangle]
    exact answers_skipArguments hskip ht h

/-- The lookahead passes arguments if the recognizer does and types are followed. -/
theorem follows_skipOptionalArguments (hskip : Follows x T us (low + 1) skip t)
    (ht : Recognizer.Shrinks t) :
    Follows x T us low (skipOptionalArguments skip) (Recognizer.optionalArguments t) := by
  intro ks σ s h
  refine .bind (h.check .less rfl) ?_
  clear h
  rintro found σ s ⟨hiff, h⟩
  cases found with
  | false =>
    refine .pure ⟨ks, ?_, h⟩
    unfold Recognizer.optionalArguments
    split
    · exact absurd (hiff.mpr ⟨_, rfl⟩) Bool.false_ne_true
    · rfl
  | true =>
    obtain ⟨ks, rfl⟩ := hiff.mp rfl
    exact (answers_skipTypeArguments hskip ht h).mono fun _ _ _ h => h.lower (Nat.le_succ low)

/-! ### Class types -/

/-- The lookahead finds another segment where the recognizer does. -/
theorem Sees.atSegment (h : Sees x T us low ks σ s.cursor) :
    Answers atSegment σ s fun b σ' c =>
      b = Recognizer.atSegment ks ∧ Sees x T us low ks σ' c := by
  refine .bind (h.check .dot rfl) ?_
  clear h
  rintro found σ s ⟨hiff, h⟩
  cases found with
  | false =>
    refine .pure ⟨?_, h⟩
    unfold Recognizer.atSegment
    split
    · exact hiff.mpr ⟨_, rfl⟩
    · exact hiff.mpr ⟨_, rfl⟩
    · rfl
  | true =>
    obtain ⟨ks, rfl⟩ := hiff.mp rfl
    refine .bind (h.kindAt_one nofun) ?_
    rintro k σ s ⟨hshows, h⟩
    refine .pure ⟨?_, h⟩
    rw [hshows.beq_eq rfl, hshows.beq_eq rfl]
    cases ks with
    | nil => rfl
    | cons k ks => cases k <;> rfl

/-- The names behind the first are passed with their arguments, as long as dots go on. -/
theorem answers_skipSegments (hskip : Follows x T us (low + 1) skip t)
    (ht : Recognizer.Shrinks t) (h : Sees x T us low ks σ s.cursor) :
    Answers (loop (fun _ => do
      if ← atSegment then
        bump
        if !(← skipAnnotations) then return .done false
        if !(← eat .identifier) then return .done false
        if ← skipOptionalArguments skip then return .again () else return .done false
      else return .done true) ()) σ s
      (Tells x T us low (Recognizer.repeated (Recognizer.segmentStep t) ks)) := by
  refine h.loop (Recognizer.shortens_segmentStep ht) ?_
  clear h
  intro ks σ s h
  refine .bind h.atSegment ?_
  clear h
  rintro found σ s ⟨hfound, h⟩
  rw [Recognizer.segmentStep, ← hfound]
  cases found with
  | false => exact .pure (.inl ⟨some ks, rfl, ks, rfl, h⟩)
  | true =>
  obtain ⟨ks, rfl⟩ := Recognizer.exists_eq_dot hfound.symm
  refine .bind (h.bump (by decide) rfl) ?_
  clear h
  rintro _ σ s h
  refine .bind (follows_skipAnnotations (h.lower (Nat.le_succ low))) ?_
  clear h
  rintro passed σ s hpassed
  rw [List.tail_cons]
  cases passed with
  | false =>
    refine .pure (hpassed.stopped fun hnone => ?_)
    rw [hnone]
    rfl
  | true =>
  obtain ⟨behind, hbehind, h⟩ := hpassed
  rw [hbehind, Option.bind_some]
  refine .bind (h.eat .identifier rfl rfl) ?_
  clear h
  rintro found σ s hfound
  cases found with
  | false =>
    refine .pure (.inl ⟨none, ?_, .inl rfl⟩)
    rw [Recognizer.segment_eq_none t hfound.1]
    rfl
  | true =>
  obtain ⟨ks, rfl, h⟩ := hfound
  refine .bind (follows_skipOptionalArguments hskip ht h) ?_
  clear h
  rintro passed σ s hpassed
  rw [Recognizer.segment]
  cases passed with
  | false =>
    refine .pure (hpassed.stopped fun hnone => ?_)
    rw [hnone]
    rfl
  | true =>
    obtain ⟨rest, hrest, h⟩ := hpassed
    exact .pure ⟨rest, by rw [hrest]; rfl, h⟩

/-- The lookahead passes a class type if the recognizer does and types are followed. -/
theorem follows_skipClassType (hskip : Follows x T us (low + 1) skip t)
    (ht : Recognizer.Shrinks t) (h : Sees x T us low (.identifier :: ks) σ s.cursor) :
    Answers (skipClassType skip) σ s
      (Tells x T us low (Recognizer.classType t (.identifier :: ks))) := by
  refine .bind (h.bump (by decide) rfl) ?_
  clear h
  rintro _ σ s h
  refine .bind (follows_skipOptionalArguments hskip ht (h.lower (Nat.le_succ low))) ?_
  clear h
  rintro passed σ s hpassed
  rw [Recognizer.classType, Recognizer.segment]
  cases passed with
  | false =>
    refine .pure (hpassed.imp_left fun hnone => ?_)
    rw [hnone, Option.bind_none]
  | true =>
    obtain ⟨rest, hrest, h⟩ := hpassed
    rw [hrest, Option.bind_some]
    exact answers_skipSegments hskip ht h

/-- The lookahead passes a type without dimensions if the recognizer does and types are
followed. -/
theorem follows_skipElementType (hskip : Follows x T us (low + 1) skip t)
    (ht : Recognizer.Shrinks t) :
    Follows x T us low (skipElementType skip) (Recognizer.element t) := by
  intro ks σ s h
  refine .bind h.kindAt_zero ?_
  clear h
  rintro k σ s ⟨hshows, h⟩
  split
  · rename_i keyword
    obtain ⟨rest, rfl⟩ := hshows.exists_eq_cons rfl
    rw [Recognizer.element]
    split
    · refine .bind (h.bump (by simp) rfl) ?_
      clear h
      rintro _ σ s h
      exact .pure ⟨rest, rfl, h.lower (Nat.le_succ low)⟩
    · exact .pure (.inl rfl)
  · obtain ⟨rest, rfl⟩ := hshows.exists_eq_cons rfl
    exact follows_skipClassType hskip ht h
  · rename_i hkeyword hidentifier
    refine .pure (.inl ?_)
    unfold Recognizer.element
    split
    · exact absurd (hshows.eq_of_cons (by simp)) (hkeyword _)
    · exact absurd (hshows.eq_of_cons (by decide)) hidentifier
    · rfl

end Arguments

/-! ### Types -/

/-- A type is passed, and the levels of arguments do not run out before the budget does. -/
theorem follows_skipTypeWithin {n : Nat} (hn : Limits.maxLookaheadTokens + 2 ≤ n + low) :
    Follows x T us low (skipTypeWithin n) Recognizer.type := by
  induction n generalizing low with
  | zero =>
    intro ks σ s h
    have hle := h.consumed_le
    have hlow := h.le_consumed
    exact .pure (.inr ⟨ks, h.within, by omega⟩)
  | succ n ih =>
    intro ks σ s h
    have hskip : Follows x T us (low + 1) (skipTypeWithin n) Recognizer.type := ih (by omega)
    rw [Recognizer.type_eq]
    refine .bind (follows_skipAnnotations h) ?_
    clear h
    rintro passed σ s hpassed
    cases passed with
    | false =>
      refine .pure (hpassed.imp_left fun hnone => ?_)
      rw [hnone]
      rfl
    | true =>
    obtain ⟨behind, hbehind, h⟩ := hpassed
    rw [hbehind, Option.bind_some]
    refine .bind (follows_skipElementType hskip Recognizer.shrinks_type h) ?_
    clear h
    rintro passed σ s hpassed
    cases passed with
    | false =>
      refine .pure (hpassed.imp_left fun hnone => ?_)
      rw [hnone]
      rfl
    | true =>
    obtain ⟨rest, hrest, h⟩ := hpassed
    rw [hrest, Option.map_some]
    refine .bind h.skipDimensions ?_
    clear h
    rintro any σ s h
    cases any with
    | false => exact .pure ⟨_, rfl, h⟩
    | true =>
      refine .bind (h.note rfl rfl) ?_
      clear h
      rintro _ σ s h
      exact .pure ⟨_, rfl, h⟩

/-- The lookahead passes a type if the recognizer does, or its budget is used up. -/
theorem follows_skipType : Follows x T us low skipType Recognizer.type :=
  follows_skipTypeWithin (Nat.le_add_right _ low)

end Lookahead

end JavaSyntax
