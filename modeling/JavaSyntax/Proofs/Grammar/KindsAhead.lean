import JavaSyntax.Proofs.Grammar.Phrases
import JavaSyntax.Proofs.Syntax.Outcomes

/-!
# The kinds ahead of a lookahead

A lookahead goes by the kinds of the tokens ahead, and it takes the closing angles of a token one
by one. So what it sees is a list of kinds in which every angle counts for itself, also where it
stands inside of a token. Beside it goes how much of the budget is used: a lookahead that runs
out of it has passed more kinds than the budget allows.
-/

namespace JavaSyntax

open JavaSyntax.Parser (Step Gives gives_peekKind gives_advance length_lt_loopBound)

/-- The kinds that a kind stands for when each closing angle is a kind of its own. -/
def TokenKind.singles : TokenKind → List TokenKind
  | .shiftRight => [.greater, .greater]
  | .unsignedShiftRight => [.greater, .greater, .greater]
  | k => [k]

/-- The kinds of words when each closing angle is a word of its own. -/
def kindsAhead (ws : List Word) : List TokenKind := ws.flatMap (·.kind.singles)

namespace TokenKind

/-- Whether a kind is one of tokens without closing angles. The end of the text is none. -/
def isSolid (k : TokenKind) : Bool := !k.isAngle && k != .endOfInput

/-- A solid kind is no closing angle. -/
theorem isAngle_of_isSolid {k : TokenKind} (h : k.isSolid = true) : k.isAngle = false := by
  rw [isSolid, Bool.and_eq_true, Bool.not_eq_true'] at h
  exact h.1

/-- A solid kind is not the end of the text. -/
theorem ne_endOfInput_of_isSolid {k : TokenKind} (h : k.isSolid = true) : k ≠ .endOfInput := by
  rintro rfl
  cases h

/-- A solid kind is in particular no `>`. -/
theorem ne_greater_of_isSolid {k : TokenKind} (h : k.isSolid = true) : k ≠ .greater := by
  rintro rfl
  cases h

/-- A kind without closing angles stands for itself. -/
theorem singles_of_isAngle {k : TokenKind} (h : k.isAngle = false) : k.singles = [k] := by
  cases k <;> first | rfl | cases h

/-- A kind stands for at least one. -/
theorem singles_ne_nil (k : TokenKind) : k.singles ≠ [] := by
  cases k <;> exact nofun

/-- A kind with closing angles stands for nothing but those. -/
theorem singles_eq_replicate {k : TokenKind} (h : k.isAngle = true) :
    ∃ n, k.singles = List.replicate (n + 1) .greater := by
  cases k <;> first | exact ⟨0, rfl⟩ | exact ⟨1, rfl⟩ | exact ⟨2, rfl⟩ | cases h

end TokenKind

/-- The kinds of the angles in a word are those that its kind stands for. -/
theorem map_kind_singles (w : Word) : w.singles.map Word.kind = w.kind.singles := by
  unfold Word.singles TokenKind.singles
  split <;> simp [*, Word.angle]

/-- The kinds ahead are those of words that are taken apart. -/
theorem map_kind_flatMap_singles (ws : List Word) :
    (ws.flatMap Word.singles).map Word.kind = kindsAhead ws := by
  rw [List.map_flatMap]
  exact congrArg (List.flatMap · ws) (funext map_kind_singles)

/-- A word without closing angles is seen as it is. -/
theorem kindsAhead_cons {w : Word} (ws : List Word) (h : w.kind.isAngle = false) :
    kindsAhead (w :: ws) = w.kind :: kindsAhead ws := by
  rw [kindsAhead, List.flatMap_cons, TokenKind.singles_of_isAngle h]
  rfl

/-- Before a kind that is no angle stands a word of this kind. -/
theorem kindsAhead_eq_cons {w : Word} {ws : List Word} {k : TokenKind} {ks : List TokenKind}
    (h : kindsAhead (w :: ws) = k :: ks) (hk : k ≠ .greater) :
    w.kind = k ∧ k.isAngle = false ∧ kindsAhead ws = ks := by
  cases hangle : w.kind.isAngle with
  | false =>
    rw [kindsAhead_cons ws hangle] at h
    obtain ⟨rfl, rfl⟩ := List.cons.inj h
    exact ⟨rfl, hangle, rfl⟩
  | true =>
    obtain ⟨n, hn⟩ := TokenKind.singles_eq_replicate hangle
    rw [kindsAhead, List.flatMap_cons, hn] at h
    exact absurd (List.cons.inj h).1.symm hk

/-- No word ahead is the end of the text. -/
theorem Cursor.Faces.kind_ne_endOfInput {x : Tokenized} {c : Cursor} {ws : List Word}
    (h : c.Faces x ws) {w : Word} (hw : w ∈ ws) : w.kind ≠ .endOfInput := by
  obtain ⟨t, rfl, hend, -⟩ := h.exists_token hw
  intro hkind
  rw [Token.isEnd, show t.kind = _ from hkind] at hend
  cases hend

/-- Whether a kind comes next, where nothing is said about how many angles a token has. -/
def Shows (k : TokenKind) (ks : List TokenKind) : Prop :=
  k = ks.headD .endOfInput ∨ k.isAngle = true ∧ ks.head? = some .greater

namespace Shows

variable {k : TokenKind} {ks : List TokenKind}

/-- A kind that shows can be compared with the first one ahead, as long as it is no angle. -/
theorem beq_eq (h : Shows k ks) {kind : TokenKind} (hkind : kind.isAngle = false) :
    (k == kind) = (ks.headD .endOfInput == kind) := by
  rcases h with rfl | ⟨hk, hgreater⟩
  · rfl
  · have hhead : ks.headD .endOfInput = .greater := by
      rw [List.headD_eq_head?_getD, hgreater]
      rfl
    rw [hhead, TokenKind.beq_false_of_bool hk hkind]
    exact (TokenKind.beq_false_of_bool (p := TokenKind.isAngle) rfl hkind).symm

/-- Whether a kind comes next can be asked about the kinds ahead, if it has no angles. -/
theorem beq_iff (h : Shows k ks) {kind : TokenKind} (hkind : kind.isSolid = true) :
    (k == kind) = true ↔ ∃ rest, ks = kind :: rest := by
  rw [h.beq_eq (TokenKind.isAngle_of_isSolid hkind), beq_iff_eq]
  cases ks with
  | nil =>
    exact ⟨fun heq => absurd heq.symm (TokenKind.ne_endOfInput_of_isSolid hkind),
      fun ⟨rest, heq⟩ => nomatch heq⟩
  | cons k ks =>
    exact ⟨fun heq => ⟨ks, congrArg (· :: ks) heq⟩, fun ⟨rest, heq⟩ => (List.cons.inj heq).1⟩

/-- A solid kind that shows is the first one ahead. -/
theorem exists_eq_cons (h : Shows k ks) (hk : k.isSolid = true) : ∃ rest, ks = k :: rest := by
  rcases h with rfl | ⟨hangle, -⟩
  · cases ks with
    | nil => cases hk
    | cons k ks => exact ⟨ks, rfl⟩
  · rw [TokenKind.isAngle_of_isSolid hk] at hangle
    cases hangle

/-- What is ahead shows, unless it is an angle. -/
theorem eq_of_cons {other : TokenKind} (h : Shows k (other :: ks)) (hother : other ≠ .greater) :
    k = other := by
  rcases h with rfl | ⟨-, hgreater⟩
  · rfl
  · exact absurd (Option.some.inj hgreater) hother

end Shows

/-- The kind of the first word shows. -/
theorem shows_wordAt (ws : List Word) : Shows (wordAt ws 0).kind (kindsAhead ws) := by
  cases ws with
  | nil => exact .inl rfl
  | cons w ws =>
    rw [wordAt_cons_zero, kindsAhead, List.flatMap_cons]
    cases hangle : w.kind.isAngle with
    | false =>
      rw [TokenKind.singles_of_isAngle hangle]
      exact .inl rfl
    | true =>
      obtain ⟨n, hn⟩ := TokenKind.singles_eq_replicate hangle
      rw [hn]
      exact .inr ⟨hangle, rfl⟩

namespace Lookahead

variable {α β : Type} {x : Tokenized} {k : TokenKind} {ks : List TokenKind} {σ : LookaheadState}
  {s : ParserState}

/-! ### Lookaheads that come to an answer -/

/-- A lookahead comes to an answer from a state, and something holds of the answer, of what the
lookahead keeps in mind and of the cursor that it leaves. -/
def Answers (w : Lookahead α) (σ : LookaheadState) (s : ParserState)
    (Q : α → LookaheadState → Cursor → Prop) : Prop :=
  Gives (fun _ => False) (w σ) s fun r c => Q r.1 r.2 c

namespace Answers

variable {w : Lookahead α} {f : α → Lookahead β} {Q R : α → LookaheadState → Cursor → Prop}
  {P : β → LookaheadState → Cursor → Prop}

/-- A lookahead that does nothing comes to its answer. -/
theorem pure {a : α} (h : Q a σ s.cursor) : Answers (Pure.pure a) σ s Q :=
  Gives.pure (a := (a, σ)) h

/-- What follows from what an answer is known for holds of it as well. -/
theorem mono (h : Answers w σ s Q) (hQ : ∀ a σ c, Q a σ c → R a σ c) : Answers w σ s R :=
  Gives.mono h fun r => hQ r.1 r.2

/-- A lookahead comes to an answer if its parts do one after the other. -/
theorem bind (hw : Answers w σ s Q)
    (hf : ∀ a σ' s', Q a σ' s'.cursor → Answers (f a) σ' s' P) : Answers (w >>= f) σ s P :=
  Gives.bind hw fun r => hf r.1 r.2

/-- A lookahead may ask for its position first. -/
theorem position {f : Nat → Lookahead α} (h : Answers (f s.cursor.position) σ s Q) :
    Answers ((liftM Parser.position : Lookahead Nat) >>= f) σ s Q := by
  unfold Answers
  rw [position_bind_eq]
  exact Gives.position h

/-- A loop comes to an end if the steps that are left become fewer. -/
theorem loop {step : α → Lookahead (Step α β)} {I : Nat → α → LookaheadState → Cursor → Prop}
    {n : Nat} {a : α} (hI : I n a σ s.cursor) (hbound : n < Parser.loopBound s)
    (hstep : ∀ n a σ s, I n a σ s.cursor → Answers (step a) σ s fun r σ c => match r with
      | .again a => ∃ m < n, I m a σ c
      | .done b => P b σ c) :
    Answers (loop step a) σ s P := by
  unfold Answers
  rw [loop_eq]
  refine Gives.loop (I := fun n r c => I n r.1 r.2 c) hI hbound ?_
  rintro n ⟨a, σ⟩ s h
  refine Gives.bind (hstep n a σ s h) ?_
  rintro ⟨_ | _, τ⟩ s' h'
  · exact Gives.pure h'
  · exact Gives.pure h'

/-- A lookahead that comes to an answer has one. -/
theorem exists_eq (h : Answers w σ s Q) :
    ∃ a σ' s', w σ s = (.ok (a, σ'), s') ∧ Q a σ' s'.cursor := by
  obtain ⟨⟨a, σ'⟩, s', hrun, ha⟩ := Gives.exists_eq h
  exact ⟨a, σ', s', hrun, ha⟩

end Answers

/-! ### What a lookahead sees -/

/-- A lookahead has these kinds ahead of it. It may stand inside of a token. -/
inductive Views (x : Tokenized) : List TokenKind → LookaheadState → Cursor → Prop
  | outside {ws : List Word} {σ : LookaheadState} {c : Cursor} (hσ : σ.pending = 0)
      (h : c.Faces x ws) : Views x (kindsAhead ws) σ c
  | inside {w : Word} {ws : List Word} {σ : LookaheadState} {c : Cursor} (hσ : σ.pending ≠ 0)
      (hlt : σ.pending < w.kind.singles.length) (h : c.Faces x (w :: ws)) :
      Views x (List.replicate σ.pending .greater ++ kindsAhead ws) σ c

namespace Views

variable {c : Cursor}

/-- Before a kind that is no angle a lookahead stands at a token of this kind. -/
theorem exists_faces (h : Views x (k :: ks) σ c) (hk : k ≠ .greater) :
    σ.pending = 0 ∧ ∃ w ws, c.Faces x (w :: ws) ∧ w.kind = k ∧ k.isAngle = false ∧
      kindsAhead ws = ks := by
  generalize hks : k :: ks = all at h
  cases h with
  | @outside ws σ c hσ h =>
    refine ⟨hσ, ?_⟩
    cases ws with
    | nil => cases hks
    | cons w ws =>
      obtain ⟨hkind, hangle, hrest⟩ := kindsAhead_eq_cons hks.symm hk
      exact ⟨w, ws, h, hkind, hangle, hrest⟩
  | inside hσ hlt h =>
    obtain ⟨n, hn⟩ := Nat.exists_eq_succ_of_ne_zero hσ
    rw [hn] at hks
    exact absurd (List.cons.inj hks).1 hk

/-- What is ahead does not depend on what else a lookahead keeps in mind. -/
theorem congr {σ' : LookaheadState} (h : Views x ks σ c) (hσ : σ'.pending = σ.pending) :
    Views x ks σ' c := by
  cases h with
  | outside hpending h => exact .outside (hσ.trans hpending) h
  | inside hpending hlt h =>
    rw [← hσ] at hpending hlt ⊢
    exact .inside hpending hlt h

/-- There are not more kinds ahead than steps that a loop may take. -/
theorem length_lt (h : Views x ks σ s.cursor) : ks.length < Parser.loopBound s := by
  have hlength (ws : List Word) : (kindsAhead ws).length = (ws.flatMap Word.singles).length := by
    rw [← map_kind_flatMap_singles, List.length_map]
  cases h with
  | @outside ws σ c hσ h =>
    rw [hlength]
    exact length_lt_loopBound ⟨ws, h, rfl⟩
  | @inside w ws σ c hσ hlt h =>
    have hbound := length_lt_loopBound ⟨w :: ws, h, rfl⟩
    rw [← hlength, kindsAhead, List.flatMap_cons, List.length_append] at hbound
    rw [List.length_append, List.length_replicate, kindsAhead]
    omega

/-- Outside of tokens a lookahead sees the kinds of words. -/
theorem kindAt_outside {ws : List Word} (hσ : σ.pending = 0) (h : s.cursor.Faces x ws) (n : Nat) :
    Answers (kindAt n) σ s fun k σ' c => k = (wordAt ws n).kind ∧ σ' = σ ∧ c.Faces x ws := by
  unfold Answers
  rw [kindAt_eq, if_pos hσ]
  refine .bind (gives_peekKind h n) ?_
  rintro _ s' ⟨rfl, hstays⟩
  exact .pure ⟨rfl, rfl, hstays.faces⟩

/-- Inside of a token a lookahead sees a closing angle. -/
theorem kindAt_inside (hσ : σ.pending ≠ 0) :
    Answers (kindAt 0) σ s fun k σ' c => k = .greater ∧ σ' = σ ∧ c = s.cursor := by
  unfold Answers
  rw [kindAt_eq, if_neg hσ, if_pos (Nat.pos_of_ne_zero hσ)]
  exact .pure ⟨rfl, rfl, rfl⟩

/-- Looking at the kind that comes next. -/
theorem kindAt_zero (h : Views x ks σ s.cursor) :
    Answers (kindAt 0) σ s fun k σ' c => Shows k ks ∧ σ' = σ ∧ Views x ks σ c := by
  generalize hc : s.cursor = c at h
  cases h with
  | @outside ws σ c hσ h =>
    subst hc
    refine (kindAt_outside hσ h 0).mono ?_
    rintro _ _ c ⟨rfl, rfl, h⟩
    exact ⟨shows_wordAt ws, rfl, .outside hσ h⟩
  | inside hσ hlt h =>
    subst hc
    refine (kindAt_inside hσ).mono ?_
    rintro _ _ _ ⟨rfl, rfl, rfl⟩
    refine ⟨.inl ?_, rfl, .inside hσ hlt h⟩
    obtain ⟨n, hn⟩ := Nat.exists_eq_succ_of_ne_zero hσ
    rw [hn]
    rfl

/-- Looking at the kind behind one that is no angle. -/
theorem kindAt_one (h : Views x (k :: ks) σ s.cursor) (hk : k ≠ .greater) :
    Answers (kindAt 1) σ s fun k' σ' c => Shows k' ks ∧ σ' = σ ∧ Views x (k :: ks) σ c := by
  obtain ⟨hσ, w, ws, hfaces, rfl, hangle, rfl⟩ := h.exists_faces hk
  refine (kindAt_outside hσ hfaces 1).mono ?_
  rintro _ _ c ⟨rfl, rfl, hfaces⟩
  refine ⟨shows_wordAt ws, rfl, ?_⟩
  rw [← kindsAhead_cons ws hangle]
  exact .outside hσ hfaces

/-- Outside of tokens a lookahead passes words. -/
theorem bump_outside {w : Word} {ws : List Word} (hσ : σ.pending = 0)
    (h : s.cursor.Faces x (w :: ws)) :
    Answers bump σ s fun _ σ' c => σ' = onward σ ∧ c.Faces x ws := by
  unfold Answers
  rw [bump_eq, if_pos (hσ ▸ Nat.zero_le 1)]
  refine .bind (gives_advance h (h.kind_ne_endOfInput List.mem_cons_self)) ?_
  rintro t s' ⟨-, hfaces⟩
  refine .pure ⟨?_, hfaces⟩
  rw [onward, hσ]

/-- Passing a token that is no angle. -/
theorem bump (h : Views x (k :: ks) σ s.cursor) (hk : k ≠ .greater) :
    Answers bump σ s fun _ σ' c => σ' = onward σ ∧ Views x ks σ' c := by
  obtain ⟨hσ, w, ws, hfaces, rfl, -, rfl⟩ := h.exists_faces hk
  refine (bump_outside hσ hfaces).mono ?_
  rintro _ _ c ⟨rfl, hfaces⟩
  exact ⟨rfl, .outside rfl hfaces⟩

/-- Passing an angle inside of a token. -/
theorem bump_inside {w : Word} {ws : List Word} (hlt : σ.pending < w.kind.singles.length)
    (h : s.cursor.Faces x (w :: ws)) :
    Answers Lookahead.bump σ s fun _ σ' c => σ'.consumed = σ.consumed + 1 ∧
      Views x (List.replicate (σ.pending - 1) .greater ++ kindsAhead ws) σ' c := by
  unfold Answers
  rw [bump_eq]
  split
  · rename_i hone
    obtain hpending : σ.pending - 1 = 0 := by omega
    refine .bind (gives_advance h (h.kind_ne_endOfInput List.mem_cons_self)) ?_
    rintro t s' ⟨-, hfaces⟩
    rw [hpending]
    exact .pure ⟨rfl, .outside rfl hfaces⟩
  · rename_i hmore
    refine .pure ⟨rfl, ?_⟩
    have hinside := Views.inside (x := x)
      (σ := { σ with consumed := σ.consumed + 1, pending := σ.pending - 1 })
      (show σ.pending - 1 ≠ 0 by omega) (show σ.pending - 1 < _ by omega) h
    exact hinside

/-- Starting to pass a token that has several angles. -/
theorem openShift {w : Word} {ws : List Word} {n : Nat} (hn : n ≠ 0)
    (hw : w.kind.singles = .greater :: List.replicate n .greater) (h : s.cursor.Faces x (w :: ws)) :
    Answers (openShift n) σ s fun _ σ' c => σ'.consumed = σ.consumed + 1 ∧
      Views x (List.replicate n .greater ++ kindsAhead ws) σ' c := by
  refine Gives.of_eq (t := s) rfl ⟨rfl, ?_⟩
  have hinside := Views.inside (x := x)
    (σ := { σ with consumed := σ.consumed + 1, pending := n }) hn (by rw [hw]; simp) h
  exact hinside

/-- Passing a closing angle, which may be a part of a token. -/
theorem bumpClosingAngle (h : Views x ks σ s.cursor) :
    Answers bumpClosingAngle σ s fun b σ' c =>
      match Recognizer.closingAngle ks with
      | some rest => b = true ∧ σ'.consumed = σ.consumed + 1 ∧ Views x rest σ' c
      | none => b = false ∧ σ' = σ ∧ Views x ks σ c := by
  unfold Lookahead.bumpClosingAngle
  generalize hc : s.cursor = c at h
  cases h with
  | @inside w ws σ c hσ hlt h =>
    subst hc
    refine .bind (kindAt_inside hσ) ?_
    rintro _ σ' s' ⟨rfl, rfl, hcursor⟩
    rw [← hcursor] at h
    refine .bind (bump_inside hlt h) ?_
    rintro _ σ'' s'' ⟨hconsumed, h⟩
    obtain ⟨n, hn⟩ := Nat.exists_eq_succ_of_ne_zero hσ
    rw [hn] at h ⊢
    exact .pure ⟨rfl, hconsumed, h⟩
  | @outside ws σ c hσ h =>
    subst hc
    refine .bind (kindAt_outside hσ h 0) ?_
    rintro _ σ' s' ⟨rfl, rfl, h⟩
    cases ws with
    | nil => exact .pure ⟨rfl, rfl, .outside hσ h⟩
    | cons w ws =>
      rw [wordAt_cons_zero]
      split
      · rename_i hkind
        refine .bind (bump_outside hσ h) ?_
        rintro _ _ s'' ⟨rfl, h⟩
        rw [kindsAhead, List.flatMap_cons, hkind]
        exact .pure ⟨rfl, rfl, .outside rfl h⟩
      · rename_i hkind
        refine .bind (openShift (n := 1) (by decide) (by rw [hkind]; rfl) h) ?_
        rintro _ σ'' s'' ⟨hconsumed, h⟩
        rw [kindsAhead, List.flatMap_cons, hkind]
        exact .pure ⟨rfl, hconsumed, h⟩
      · rename_i hkind
        refine .bind (openShift (n := 2) (by decide) (by rw [hkind]; rfl) h) ?_
        rintro _ σ'' s'' ⟨hconsumed, h⟩
        rw [kindsAhead, List.flatMap_cons, hkind]
        exact .pure ⟨rfl, hconsumed, h⟩
      · rename_i hgreater hshift hunsigned
        have hangle : w.kind.isAngle = false := by
          unfold TokenKind.isAngle
          split <;> first | rfl | contradiction
        have hnone : Recognizer.closingAngle (w.kind :: kindsAhead ws) = none := by
          unfold Recognizer.closingAngle
          split
          · rename_i hcons
            exact absurd (List.cons.inj hcons).1 hgreater
          · rfl
        rw [kindsAhead_cons ws hangle, hnone, ← kindsAhead_cons ws hangle]
        exact .pure ⟨rfl, rfl, .outside hσ h⟩

end Views

/-! ### What a lookahead has passed -/

/-- Somewhere ahead, in groups that were opened on the way there, a budget is used up. -/
def Exceeds (T : Nat) (us : List TokenKind) : Prop :=
  ∃ ks, Within us ks ∧ Limits.maxLookaheadTokens + ks.length < T

/-- A budget that is used up further on is used up. -/
theorem Exceeds.around {T : Nat} {us vs : List TokenKind} (h : Exceeds T us) (hus : Within vs us) :
    Exceeds T vs := by
  obtain ⟨ks, hks, hlt⟩ := h
  exact ⟨ks, hus.trans hks, hlt⟩

/-- A lookahead has come to some kinds on its way, where no group has been closed that was not
opened on the way. It has not passed more than so many kinds in all, and not fewer than so many. -/
structure Sees (x : Tokenized) (T : Nat) (us : List TokenKind) (low : Nat) (ks : List TokenKind)
    (σ : LookaheadState) (c : Cursor) : Prop where
  views : Views x ks σ c
  consumed_le : σ.consumed + ks.length ≤ T
  le_consumed : low ≤ σ.consumed
  within : Within us ks

namespace Sees

variable {T low : Nat} {us : List TokenKind}

/-- Looking around changes nothing about where a lookahead has come to. -/
theorem keep {σ' : LookaheadState} {c c' : Cursor} (h : Sees x T us low ks σ c) (hσ : σ' = σ)
    (hviews : Views x ks σ c') : Sees x T us low ks σ' c' := by
  subst hσ
  exact ⟨hviews, h.consumed_le, h.le_consumed, h.within⟩

/-- What is known of a depth is known of those below it. -/
theorem lower {low' : Nat} {c : Cursor} (h : Sees x T us low ks σ c) (hlow : low' ≤ low) :
    Sees x T us low' ks σ c :=
  ⟨h.views, h.consumed_le, Nat.le_trans hlow h.le_consumed, h.within⟩

/-- A lookahead is also on its way from further back. -/
theorem around {vs : List TokenKind} {c : Cursor} (h : Sees x T us low ks σ c)
    (hus : Within vs us) : Sees x T vs low ks σ c :=
  ⟨h.views, h.consumed_le, h.le_consumed, hus.trans h.within⟩

/-- A lookahead may note what it has seen. -/
theorem note (h : Sees x T us low ks σ s.cursor) {g : LookaheadState → LookaheadState}
    (hpending : (g σ).pending = σ.pending) (hconsumed : (g σ).consumed = σ.consumed) :
    Answers (modify g) σ s fun _ σ' c => Sees x T us low ks σ' c :=
  Gives.of_eq (t := s) (a := (PUnit.unit, g σ)) rfl
    ⟨h.views.congr hpending, hconsumed ▸ h.consumed_le, hconsumed ▸ h.le_consumed, h.within⟩

/-- A lookahead sees the kind that comes next. -/
theorem kindAt_zero (h : Sees x T us low ks σ s.cursor) :
    Answers (kindAt 0) σ s fun k σ' c => Shows k ks ∧ Sees x T us low ks σ' c :=
  h.views.kindAt_zero.mono fun _ _ _ ⟨hshows, hσ, hviews⟩ => ⟨hshows, h.keep hσ hviews⟩

/-- A lookahead sees the kind after the next one, unless the next one is an angle. -/
theorem kindAt_one (h : Sees x T us low (k :: ks) σ s.cursor) (hk : k ≠ .greater) :
    Answers (kindAt 1) σ s fun k' σ' c => Shows k' ks ∧ Sees x T us low (k :: ks) σ' c :=
  (h.views.kindAt_one hk).mono fun _ _ _ ⟨hshows, hσ, hviews⟩ => ⟨hshows, h.keep hσ hviews⟩

/-- Whether a kind comes next. -/
theorem check (h : Sees x T us low ks σ s.cursor) (kind : TokenKind) (hkind : kind.isSolid = true) :
    Answers (check kind) σ s fun b σ' c =>
      (b = true ↔ ∃ rest, ks = kind :: rest) ∧ Sees x T us low ks σ' c := by
  refine .bind h.kindAt_zero ?_
  rintro k σ' s' ⟨hshows, h⟩
  exact .pure ⟨hshows.beq_iff hkind, h⟩

/-- Whether two kinds come next. -/
theorem checkPair (h : Sees x T us low ks σ s.cursor) (kind next : TokenKind)
    (hkind : kind.isSolid = true) (hnext : next.isSolid = true) :
    Answers (checkPair kind next) σ s fun b σ' c =>
      (b = true ↔ ∃ rest, ks = kind :: next :: rest) ∧ Sees x T us low ks σ' c := by
  refine .bind (h.check kind hkind) ?_
  rintro b σ' s' ⟨hiff, h⟩
  cases b with
  | false =>
    refine .pure ⟨⟨nofun, ?_⟩, h⟩
    rintro ⟨rest, rfl⟩
    exact hiff.mpr ⟨_, rfl⟩
  | true =>
    obtain ⟨ks, rfl⟩ := hiff.mp rfl
    refine .bind (h.kindAt_one (TokenKind.ne_greater_of_isSolid hkind)) ?_
    rintro k σ' s' ⟨hshows, h⟩
    refine .pure ⟨?_, h⟩
    rw [hshows.beq_iff hnext]
    simp

/-- Passing a kind that is no angle and closes no group. -/
theorem bump (h : Sees x T us low (k :: ks) σ s.cursor) (hk : k ≠ .greater)
    (hcloses : k.closesGroup = false) :
    Answers bump σ s fun _ σ' c => Sees x T us (low + 1) ks σ' c := by
  refine (h.views.bump hk).mono ?_
  rintro _ _ c ⟨rfl, hviews⟩
  refine ⟨hviews, ?_, Nat.succ_le_succ h.le_consumed, h.within.tail hcloses⟩
  have hle := h.consumed_le
  simp only [List.length_cons] at hle
  change σ.consumed + 1 + ks.length ≤ T
  omega

/-- Passing a kind if it comes next. -/
theorem eat (h : Sees x T us low ks σ s.cursor) (kind : TokenKind) (hkind : kind.isSolid = true)
    (hcloses : kind.closesGroup = false) :
    Answers (eat kind) σ s fun b σ' c =>
      match b with
      | true => ∃ rest, ks = kind :: rest ∧ Sees x T us low rest σ' c
      | false => (∀ rest, ks ≠ kind :: rest) ∧ Sees x T us low ks σ' c := by
  refine .bind (h.check kind hkind) ?_
  rintro b σ' s' ⟨hiff, h⟩
  cases b with
  | false => exact .pure ⟨fun rest heq => Bool.false_ne_true (hiff.mpr ⟨rest, heq⟩), h⟩
  | true =>
    obtain ⟨ks, rfl⟩ := hiff.mp rfl
    refine .bind (h.bump (TokenKind.ne_greater_of_isSolid hkind) hcloses) ?_
    rintro _ σ' s' h
    exact .pure ⟨ks, rfl, h.lower (Nat.le_succ low)⟩

/-- Passing a closing angle if one comes next. -/
theorem bumpClosingAngle (h : Sees x T us low ks σ s.cursor) :
    Answers bumpClosingAngle σ s fun b σ' c =>
      match Recognizer.closingAngle ks with
      | some rest => b = true ∧ Sees x T us low rest σ' c
      | none => b = false ∧ Sees x T us low ks σ' c := by
  refine h.views.bumpClosingAngle.mono ?_
  intro b σ' c hpassed
  cases hangle : Recognizer.closingAngle ks with
  | none =>
    rw [hangle] at hpassed
    obtain ⟨rfl, hσ, hviews⟩ := hpassed
    exact ⟨rfl, h.keep hσ hviews⟩
  | some rest =>
    rw [hangle] at hpassed
    obtain ⟨rfl, hconsumed, hviews⟩ := hpassed
    obtain rfl := Recognizer.eq_of_closingAngle hangle
    have hle := h.consumed_le
    have hlow := h.le_consumed
    simp only [List.length_cons] at hle
    exact ⟨rfl, hviews, by omega, by omega, h.within.tail rfl⟩

/-- The budget is used up only where this many kinds have been passed. -/
theorem exhausted (h : Sees x T us low ks σ s.cursor) :
    Answers exhausted σ s fun b σ' c =>
      match b with
      | true => Exceeds T us
      | false => Sees x T us low ks σ' c := by
  refine Gives.of_eq (t := s) (a := (decide (Limits.maxLookaheadTokens < σ.consumed), σ)) rfl ?_
  dsimp only
  split
  · rename_i hexhausted
    rw [decide_eq_true_iff] at hexhausted
    exact ⟨ks, h.within, Nat.lt_of_lt_of_le (Nat.add_lt_add_right hexhausted _) h.consumed_le⟩
  · exact h

end Sees

end Lookahead

end JavaSyntax
