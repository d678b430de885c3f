import JavaSyntax.Proofs.Syntax.Pace
import JavaSyntax.Proofs.Syntax.Reaches
import JavaSyntax.Proofs.Tree.Turns

/-!
# Looking ahead in expressions of operators

Where operands and operators take turns, no lookahead takes a comparison for a type with
arguments, or a name in parentheses for a cast. What it passes as a type is one name, unless
it ends inside of a token that has several `>`, and there nothing but another `>` comes next.
-/

namespace JavaSyntax

open JavaSyntax.Parser Work

namespace Lookahead

variable {α β : Type} {x : Tokenized} {t t' : Turn} {w : Word} {ws : List Word}
  {σ : LookaheadState} {s : ParserState} {inner : Prop}

/-! ### Lookaheads that come to an answer -/

/-- A lookahead comes to an answer from a state, and something holds of the answer, of what the
lookahead keeps in mind and of the cursor that it leaves. -/
def Finds (w : Lookahead α) (σ : LookaheadState) (s : ParserState)
    (Q : α → LookaheadState → Cursor → Prop) : Prop :=
  Reaches (w σ) s fun r c => Q r.1 r.2 c

namespace Finds

variable {w : Lookahead α} {f : α → Lookahead β} {Q R : α → LookaheadState → Cursor → Prop}
  {P : β → LookaheadState → Cursor → Prop}

/-- A lookahead that does nothing comes to its answer. -/
theorem pure {a : α} (h : Q a σ s.cursor) : Finds (Pure.pure a) σ s Q :=
  Reaches.pure (a := (a, σ)) h

/-- What follows from what an answer is known for holds of it as well. -/
theorem mono (h : Finds w σ s Q) (hQ : ∀ a σ c, Q a σ c → R a σ c) : Finds w σ s R :=
  Reaches.mono h fun r => hQ r.1 r.2

/-- A lookahead comes to an answer if its parts do one after the other. -/
theorem bind (hw : Finds w σ s Q)
    (hf : ∀ a σ' s', Q a σ' s'.cursor → Finds (f a) σ' s' P) : Finds (w >>= f) σ s P :=
  Reaches.bind hw fun r => hf r.1 r.2

/-- A lookahead may ask for its position first. -/
theorem position {f : Nat → Lookahead α} (h : Finds (f s.cursor.position) σ s Q) :
    Finds ((liftM Parser.position : Lookahead Nat) >>= f) σ s Q := by
  unfold Finds
  rw [position_bind_eq]
  exact Reaches.position h

/-- A loop comes to an end if the steps that are left become fewer. -/
theorem loop {step : α → Lookahead (Step α β)} {I : Nat → α → LookaheadState → Cursor → Prop}
    {n : Nat} {a : α} (hI : I n a σ s.cursor) (hbound : n < loopBound s)
    (hstep : ∀ n a σ s, I n a σ s.cursor → Finds (step a) σ s fun r σ c => match r with
      | .again a => ∃ m < n, I m a σ c
      | .done b => P b σ c) :
    Finds (loop step a) σ s P := by
  unfold Finds
  rw [loop_eq]
  refine Reaches.loop (I := fun n r c => I n r.1 r.2 c) hI hbound ?_
  rintro n ⟨a, σ⟩ s h
  refine Reaches.bind (hstep n a σ s h) ?_
  rintro ⟨_ | _, τ⟩ s' h'
  · exact Reaches.pure h'
  · exact Reaches.pure h'

/-- A loop may end with its first step. -/
theorem once {step : α → Lookahead (Step α β)} {a : α}
    (h : Finds (step a) σ s fun r σ c => ∃ b, r = .done b ∧ P b σ c) :
    Finds (Lookahead.loop step a) σ s P := by
  unfold Finds
  rw [loop_eq]
  change Reaches (Parser.loopFor (stepped step) (s.cursor.text.utf8ByteSize + 1) (a, σ)) s _
  rw [Parser.loopFor]
  refine Reaches.bind (Q := fun r c => ∃ b σ', r = .done (b, σ') ∧ P b σ' c) ?_ ?_
  · refine Reaches.bind h ?_
    rintro ⟨_, σ'⟩ s' ⟨b, rfl, hb⟩
    exact Reaches.pure ⟨b, σ', rfl, hb⟩
  · rintro _ s' ⟨b, σ', rfl, hb⟩
    exact Reaches.pure hb

end Finds

/-! ### At a token, or inside of one -/

/-- A lookahead stands at a token, from which operands and operators take turns. -/
structure Stands (x : Tokenized) (t : Turn) (ws : List Word) (σ : LookaheadState) (c : Cursor) :
    Prop where
  pending_eq : σ.pending = 0
  faces : c.Faces x ws
  admits : t.Admits ws

/-- A lookahead stands inside of a token. -/
structure Inside (x : Tokenized) (σ : LookaheadState) (c : Cursor) : Prop where
  pending_ne : σ.pending ≠ 0
  exists_faces : ∃ ws, c.Faces x ws

/-- A lookahead stands at such a token or, where this is possible, inside of one. -/
def Lingers (inner : Prop) (x : Tokenized) (t : Turn) (ws : List Word) (σ : LookaheadState)
    (c : Cursor) : Prop :=
  inner ∧ Inside x σ c ∨ Stands x t ws σ c

/-- A lookahead sees the kinds of words. -/
theorem Stands.kindAt (h : Stands x t ws σ s.cursor) (n : Nat) :
    Finds (kindAt n) σ s fun kind σ' c =>
      kind = (wordAt ws n).kind ∧ σ' = σ ∧ Stands x t ws σ' c := by
  unfold Finds
  rw [kindAt_eq, if_pos h.pending_eq]
  refine .bind (reaches_peekKind h.faces n) ?_
  rintro _ s' ⟨rfl, hstays⟩
  exact .pure ⟨rfl, rfl, h.pending_eq, hstays.faces, h.admits⟩

/-- Inside of a token a `>` comes next. -/
theorem Inside.kindAt (h : Inside x σ s.cursor) (n : Nat) :
    Finds (kindAt n) σ s fun kind σ' c => (n = 0 → kind = .greater) ∧ Inside x σ' c := by
  obtain ⟨ws, hfaces⟩ := h.exists_faces
  unfold Finds
  rw [kindAt_eq, if_neg h.pending_ne]
  split
  · exact .pure ⟨fun _ => rfl, h⟩
  · rename_i hn
    refine .bind (reaches_peekKind hfaces _) ?_
    rintro _ s' ⟨-, hstays⟩
    refine .pure ⟨?_, h.pending_ne, ws, hstays.faces⟩
    rintro rfl
    exact absurd (Nat.pos_of_ne_zero h.pending_ne) hn

/-- A check compares the kind of the first word. -/
theorem Stands.check (h : Stands x t ws σ s.cursor) (kind : TokenKind) :
    Finds (check kind) σ s fun b σ' c =>
      b = ((wordAt ws 0).kind == kind) ∧ Stands x t ws σ' c := by
  refine .bind (h.kindAt 0) ?_
  rintro _ σ' s' ⟨rfl, -, h⟩
  exact .pure ⟨rfl, h⟩

/-- Inside of a token nothing but a closing angle is found. -/
theorem Inside.check (h : Inside x σ s.cursor) (kind : TokenKind) (hkind : kind ≠ .greater) :
    Finds (check kind) σ s fun b σ' c => b = false ∧ Inside x σ' c := by
  refine .bind (h.kindAt 0) ?_
  rintro _ σ' s' ⟨hgreater, h⟩
  rw [hgreater rfl]
  exact .pure ⟨beq_false_of_ne hkind.symm, h⟩

/-- A word of another kind is not eaten. -/
theorem Stands.eat_other (h : Stands x t ws σ s.cursor) {kind : TokenKind}
    (hkind : ((wordAt ws 0).kind == kind) = false) :
    Finds (eat kind) σ s fun b σ' c => b = false ∧ Stands x t ws σ' c := by
  refine .bind (h.check kind) ?_
  rintro _ σ' s' ⟨rfl, h⟩
  rw [hkind]
  exact .pure ⟨rfl, h⟩

/-- Inside of a token nothing but a closing angle is eaten. -/
theorem Inside.eat (h : Inside x σ s.cursor) (kind : TokenKind) (hkind : kind ≠ .greater) :
    Finds (eat kind) σ s fun b σ' c => b = false ∧ Inside x σ' c := by
  refine .bind (h.check kind hkind) ?_
  rintro _ σ' s' ⟨rfl, h⟩
  exact .pure ⟨rfl, h⟩

/-- The token that a lookahead stands at is passed. -/
theorem Stands.bump (h : Stands x t (w :: ws) σ s.cursor) :
    Finds bump σ s fun _ σ' c => ∃ t', t.next w.kind = some t' ∧ Stands x t' ws σ' c := by
  obtain ⟨t', hnext, hadmits⟩ := h.admits.cons
  have hend : w.kind ≠ .endOfInput := by
    intro hend
    rw [hend] at hnext
    cases t <;> cases hnext
  unfold Finds
  rw [bump_eq, if_pos (by rw [h.pending_eq]; exact Nat.zero_le 1)]
  refine .bind (reaches_advance h.faces hend) ?_
  rintro token s' ⟨-, hfaces⟩
  refine .pure ⟨t', hnext, ?_, hfaces, hadmits⟩
  change σ.pending - 1 = 0
  rw [h.pending_eq]

/-- A token of a kind is passed if it comes next. -/
theorem Stands.eat (h : Stands x t ws σ s.cursor) (kind : TokenKind) (hend : kind ≠ .endOfInput) :
    Finds (eat kind) σ s fun b σ' c =>
      (b = true → ∃ w vs t', ws = w :: vs ∧ w.kind = kind ∧ t.next kind = some t' ∧
        Stands x t' vs σ' c) ∧ (b = false → Stands x t ws σ' c) := by
  refine .bind (h.check kind) ?_
  rintro _ σ' s' ⟨rfl, h⟩
  split
  · rename_i hkind
    rw [beq_iff_eq] at hkind
    cases ws with
    | nil => exact absurd hkind.symm hend
    | cons w vs =>
      rw [wordAt_cons_zero] at hkind
      refine .bind h.bump ?_
      rintro _ σ' s' ⟨t', hnext, h⟩
      rw [hkind] at hnext
      exact .pure ⟨fun _ => ⟨w, vs, t', rfl, hkind, hnext, h⟩, nofun⟩
  · exact .pure ⟨by rintro ⟨⟩, fun _ => h⟩

/-! ### Tokens that do not take turns -/

namespace Lingers

/-- Where operands and operators take turns, no other kind is found. -/
theorem check (h : Lingers inner x t ws σ s.cursor) {kind : TokenKind}
    (hkind : kind.takesTurns = false) :
    Finds (check kind) σ s fun b σ' c => b = false ∧ Lingers inner x t ws σ' c := by
  rcases h with ⟨hinner, h⟩ | h
  · have hgreater : kind ≠ .greater := by
      rintro rfl
      cases hkind
    exact (h.check kind hgreater).mono fun b σ' c ⟨hb, h⟩ => ⟨hb, .inl ⟨hinner, h⟩⟩
  · refine (h.check kind).mono ?_
    rintro b σ' c ⟨rfl, h⟩
    exact ⟨TokenKind.beq_false_of_bool (h.admits.takesTurns_wordAt 0) hkind, .inr h⟩

/-- Where operands and operators take turns, no other kind is eaten. -/
theorem eat (h : Lingers inner x t ws σ s.cursor) {kind : TokenKind}
    (hkind : kind.takesTurns = false) :
    Finds (eat kind) σ s fun b σ' c => b = false ∧ Lingers inner x t ws σ' c := by
  refine .bind (h.check hkind) ?_
  rintro _ σ' s' ⟨rfl, h⟩
  exact .pure ⟨rfl, h⟩

/-- A token that may not come next does not, and no token that goes on with a `>` starts with it. -/
theorem eat_refused (h : Lingers inner x t ws σ s.cursor) {kind : TokenKind}
    (hnone : t.next kind = none) (hend : kind ≠ .endOfInput) (hgreater : kind ≠ .greater) :
    Finds (Lookahead.eat kind) σ s fun b _ _ => b = false := by
  rcases h with ⟨-, h⟩ | h
  · exact (h.eat kind hgreater).mono fun b σ' c => And.left
  · exact (h.eat_other (beq_false_of_ne (h.admits.kind_ne hnone hend))).mono fun b σ' c => And.left

/-- There are no dimensions. -/
theorem skipDimensions (h : Lingers inner x t ws σ s.cursor) :
    Finds skipDimensions σ s fun b σ' c => b = false ∧ Lingers inner x t ws σ' c := by
  refine .once (.bind (Q := fun b σ' c => b = false ∧ Lingers inner x t ws σ' c) ?_ ?_)
  · refine .bind (h.check rfl) ?_
    rintro _ σ' s' ⟨rfl, h⟩
    exact .pure ⟨rfl, h⟩
  · rintro _ σ' s' ⟨rfl, h⟩
    exact .pure ⟨false, rfl, rfl, h⟩

/-- There are no annotations. -/
theorem atAnnotation (h : Lingers inner x t ws σ s.cursor) :
    Finds atAnnotation σ s fun b σ' c => b = false ∧ Lingers inner x t ws σ' c := by
  refine .bind (h.check rfl) ?_
  rintro _ σ' s' ⟨rfl, h⟩
  exact .pure ⟨rfl, h⟩

/-- Where operands and operators take turns, there are no annotations. -/
theorem skipAnnotations (h : Lingers inner x t ws σ s.cursor) :
    Finds skipAnnotations σ s fun b σ' c => b = true ∧ Lingers inner x t ws σ' c := by
  refine .once (.bind h.atAnnotation ?_)
  rintro _ σ' s' ⟨rfl, h⟩
  exact .pure ⟨true, rfl, rfl, h⟩

/-- Where operands and operators take turns, there are no modifiers. -/
theorem skipModifiers (h : Lingers inner x t ws σ s.cursor) :
    Finds skipModifiers σ s fun _ σ' c => Lingers inner x t ws σ' c := by
  refine .once (.bind (h.eat rfl) ?_)
  rintro _ σ' s' ⟨rfl, h⟩
  refine .bind h.atAnnotation ?_
  rintro _ σ' s' ⟨rfl, h⟩
  exact .pure ⟨false, rfl, h⟩

end Lingers

/-- A lookahead that stands at a token lingers there. -/
theorem Stands.lingers (h : Stands x t ws σ s.cursor) : Lingers False x t ws σ s.cursor := .inr h

/-- A lookahead that cannot be inside of a token stands at one. -/
theorem Lingers.stands {c : Cursor} (h : Lingers False x t ws σ c) : Stands x t ws σ c :=
  h.resolve_left nofun

/-! ### Types -/

/-- What is passed as a type is one name, or ends inside of a token. The latter can only be if a
`<` comes behind the name. -/
def PassesName (x : Tokenized) (t : Turn) (ws : List Word) (σ : LookaheadState) (c : Cursor) :
    Prop :=
  ∃ w vs t', ws = w :: vs ∧ w.kind = .identifier ∧ t.next .identifier = some t' ∧
    Lingers ((wordAt vs 0).kind = .less) x t' vs σ c

/-- It is the turn of an operator behind a name. -/
theorem PassesName.place {c : Cursor} (h : PassesName x t ws σ c) :
    Inside x σ c ∨ ∃ t' vs, vs.length < ws.length ∧ t'.wantsOperand = false ∧
      Stands x t' vs σ c := by
  obtain ⟨w, vs, t', rfl, -, hnext, h⟩ := h
  have hwants : t'.wantsOperand = false := by
    cases t <;> cases hnext <;> rfl
  exact h.imp And.right fun h => ⟨t', vs, Nat.lt_succ_self _, hwants, h⟩

/-- To ask for the budget leaves a lookahead where it stands. -/
theorem Stands.exhausted (h : Stands x t ws σ s.cursor) :
    Finds exhausted σ s fun _ σ' c => Stands x t ws σ' c := Reaches.of_eq rfl h

/-- Where an operator comes next it may start with a `>`. -/
theorem Stands.bumpClosingAngle (h : Stands x t ws σ s.cursor)
    (hgreater : (wordAt ws 0).kind ≠ .greater) :
    Finds bumpClosingAngle σ s fun b σ' c =>
      (b = true → t.wantsOperand = false ∧ Inside x σ' c) ∧ (b = false → Stands x t ws σ' c) := by
  unfold Lookahead.bumpClosingAngle
  refine .bind (h.kindAt 0) ?_
  rintro _ σ' s' ⟨rfl, -, h⟩
  have hnext := h.admits.next_wordAt
  have hopens (n : Nat) (hn : n ≠ 0) (hwants : t.wantsOperand = false) :
      Finds (openShift n >>= fun _ => pure true) σ' s' fun b σ'' c =>
        (b = true → t.wantsOperand = false ∧ Inside x σ'' c) ∧
          (b = false → Stands x t ws σ'' c) := by
    have hinside : Inside x { σ' with consumed := σ'.consumed + 1, pending := n } s'.cursor :=
      ⟨hn, ws, h.faces⟩
    exact Reaches.of_eq (t := s') rfl ⟨fun _ => ⟨hwants, hinside⟩, by rintro ⟨⟩⟩
  generalize (wordAt ws 0).kind = kind at hnext hgreater
  dsimp only
  split
  · exact absurd rfl hgreater
  · refine hopens 1 (by decide) ?_
    cases t <;> first | rfl | (rcases hnext with hnext | hnext <;> cases hnext)
  · refine hopens 2 (by decide) ?_
    cases t <;> first | rfl | (rcases hnext with hnext | hnext <;> cases hnext)
  · exact .pure ⟨by rintro ⟨⟩, fun _ => h⟩

/-- The arguments of a type end inside of a token, if nothing but names is passed as a type. -/
theorem Stands.skipTypeArguments {skip : Lookahead Bool} (h : Stands x t (w :: ws) σ s.cursor)
    (hw : w.kind = .less)
    (hskip : ∀ {t ws σ s}, Stands x t ws σ s.cursor →
      Finds skip σ s fun b σ' c => b = true → PassesName x t ws σ' c) :
    Finds (skipTypeArguments skip) σ s fun b σ' c => b = true → Inside x σ' c := by
  unfold Lookahead.skipTypeArguments
  refine .bind h.bump ?_
  rintro _ σ s ⟨t', hnext, h⟩
  obtain rfl : t' = .compared := by
    rw [hw] at hnext
    cases t <;> cases hnext
    rfl
  refine .bind (Q := fun _ σ' c => Stands x .compared ws σ' c)
    (Finds.pure (Q := fun _ σ' c => Stands x .compared ws σ' c)
      (σ := { σ with sawTypeArguments := true }) ⟨h.pending_eq, h.faces, h.admits⟩) ?_
  rintro _ σ s h
  have hadmits := h.admits
  -- An operand stands behind a `<`, so there is neither a diamond nor a wildcard.
  refine .bind (h.bumpClosingAngle (hadmits.kind_ne rfl nofun)) ?_
  rintro found σ s ⟨htrue, hfalse⟩
  cases found with
  | true => cases (htrue rfl).1
  | false =>
    refine .once (.bind (hfalse rfl).exhausted ?_)
    rintro isExhausted σ s h
    cases isExhausted with
    | true => exact .pure ⟨false, rfl, nofun⟩
    | false =>
      refine .bind h.lingers.skipAnnotations ?_
      rintro _ σ s ⟨rfl, h⟩
      refine .bind (Q := fun b σ' c => b = true → PassesName x .compared ws σ' c) ?_ ?_
      · refine .bind (h.stands.eat_other (beq_false_of_ne (hadmits.kind_ne rfl nofun))) ?_
        rintro _ σ s ⟨rfl, h⟩
        exact hskip h
      rintro passed σ s hpasses
      cases passed with
      | false => exact .pure ⟨false, rfl, nofun⟩
      | true =>
        obtain ⟨name, vs, t', rfl, hname, hnext, hlingers⟩ := hpasses rfl
        obtain rfl : t' = .argument := (Option.some.inj hnext).symm
        obtain ⟨t', hnext, hadmits⟩ := hadmits.cons
        rw [hname] at hnext
        obtain rfl : t' = .argument := (Option.some.inj hnext).symm
        -- Neither a `<` nor a `>` comes behind a name that stands behind a `<`.
        have hless : (wordAt vs 0).kind ≠ .less := hadmits.kind_ne rfl nofun
        have hstands := hlingers.resolve_left fun hinner => hless hinner.1
        refine .bind (hstands.eat_other (TokenKind.beq_false_of_bool
          (hadmits.takesTurns_wordAt 0) rfl)) ?_
        rintro _ σ s ⟨rfl, h⟩
        refine .bind (h.bumpClosingAngle (hadmits.kind_ne rfl nofun)) ?_
        rintro closed σ s ⟨htrue, -⟩
        exact .pure ⟨closed, rfl, fun hclosed => (htrue hclosed).2⟩

/-- Behind a name, dots and dimensions do not come. -/
theorem Stands.skipClassType {skip : Lookahead Bool} (h : Stands x t ws σ s.cursor)
    (hname : (wordAt ws 0).kind = .identifier)
    (hskip : ∀ {t ws σ s}, Stands x t ws σ s.cursor →
      Finds skip σ s fun b σ' c => b = true → PassesName x t ws σ' c) :
    Finds (skipClassType skip) σ s fun b σ' c => b = true → PassesName x t ws σ' c := by
  cases ws with
  | nil => cases hname
  | cons w vs =>
    rw [wordAt_cons_zero] at hname
    unfold Lookahead.skipClassType
    refine .bind h.bump ?_
    rintro _ σ s ⟨t', hnext, h⟩
    rw [hname] at hnext
    refine .bind (Q := fun b σ' c =>
      b = true → Lingers ((wordAt vs 0).kind = .less) x t' vs σ' c) ?_ ?_
    · refine .bind (h.check .less) ?_
      rintro _ σ s ⟨rfl, h⟩
      split
      · rename_i hless
        rw [beq_iff_eq] at hless
        cases vs with
        | nil => cases hless
        | cons v vs =>
          refine (h.skipTypeArguments hless hskip).mono ?_
          intro b σ' c hinside hb
          exact .inl ⟨hless, hinside hb⟩
      · exact .pure fun _ => .inr h
    rintro passed σ s hlingers
    cases passed with
    | false => exact .pure nofun
    | true =>
      refine .once (.bind (Q := fun b σ' c =>
        b = false ∧ Lingers ((wordAt vs 0).kind = .less) x t' vs σ' c) ?_ ?_)
      · refine .bind ((hlingers rfl).check rfl) ?_
        rintro _ σ s ⟨rfl, h⟩
        exact .pure ⟨rfl, h⟩
      · rintro _ σ s ⟨rfl, h⟩
        exact .pure ⟨true, rfl, fun _ => ⟨w, vs, t', rfl, hname, hnext, h⟩⟩

/-- What is passed as a type is a name. -/
theorem Stands.skipTypeWithin (n : Nat) (h : Stands x t ws σ s.cursor) :
    Finds (skipTypeWithin n) σ s fun b σ' c => b = true → PassesName x t ws σ' c := by
  induction n generalizing t ws σ s with
  | zero => exact .pure nofun
  | succ n ih =>
    rw [Lookahead.skipTypeWithin]
    refine .bind h.lingers.skipAnnotations ?_
    rintro _ σ s ⟨rfl, h⟩
    refine .bind (Q := fun b σ' c => b = true → PassesName x t ws σ' c) ?_ ?_
    · refine .bind (h.stands.kindAt 0) ?_
      rintro _ σ s ⟨rfl, -, h⟩
      have hturns := h.admits.takesTurns_wordAt 0
      split
      · rename_i keyword hkeyword
        rw [hkeyword] at hturns
        cases keyword <;> cases hturns
      · rename_i hname
        exact h.skipClassType hname ih
      · exact .pure nofun
    rintro passed σ s hpasses
    cases passed with
    | false => exact .pure nofun
    | true =>
      obtain ⟨w, vs, t', hwords, hname, hnext, h⟩ := hpasses rfl
      refine .bind h.skipDimensions ?_
      rintro _ σ s ⟨rfl, h⟩
      exact .pure fun _ => ⟨w, vs, t', hwords, hname, hnext, h⟩

/-- What is passed as a type is one name, or ends inside of a token. -/
theorem Stands.skipType (h : Stands x t ws σ s.cursor) :
    Finds skipType σ s fun b σ' c => b = true → PassesName x t ws σ' c := h.skipTypeWithin _

/-- There is an end to what a lookahead can pass. -/
theorem Stands.length_lt_loopBound (h : Stands x t ws σ s.cursor) : ws.length < loopBound s :=
  words_lt_loopBound h.faces

/-! ### What a parenthesis opens -/

/-- There is no arrow. -/
theorem Stands.beforeArrow (h : Stands x t ws σ s.cursor) :
    Finds beforeArrow σ s fun b _ _ => b = false := by
  refine .bind (Q := fun _ σ' c => ∃ t' vs, Stands x t' vs σ' c) ?_ ?_
  · unfold Finds
    rw [skipBalanced_eq h.pending_eq]
    refine .loop (n := ws.length)
      (I := fun n r c => ∃ t' vs, vs.length = n ∧ Stands x t' vs r.2 c) ⟨t, ws, rfl, h⟩
      h.length_lt_loopBound ?_
    rintro n ⟨depth, σ⟩ s ⟨t, ws, rfl, h⟩
    unfold balancedStep
    split
    · exact .pure ⟨t, ws, h⟩
    refine .bind (reaches_currentKind h.faces) ?_
    rintro _ s ⟨rfl, hfaces, -⟩
    cases ws with
    | nil => exact .pure ⟨t, [], h.pending_eq, hfaces, h.admits⟩
    | cons w ws =>
      obtain ⟨t', -, hadmits⟩ := h.admits.cons
      rw [wordAt_cons_zero]
      split
      · exact .pure ⟨t, _, h.pending_eq, hfaces, h.admits⟩
      rename_i hend
      refine .bind (reaches_advance hfaces hend) ?_
      rintro token s ⟨-, hfaces⟩
      refine .pure ?_
      cases balance depth w.kind with
      | again depth => exact ⟨ws.length, Nat.lt_succ_self _, t', ws, rfl, rfl, hfaces, hadmits⟩
      | done result => exact ⟨t', ws, rfl, hfaces, hadmits⟩
  · rintro passed σ s ⟨t', vs, h⟩
    cases passed with
    | false => exact .pure rfl
    | true => exact (h.lingers.check rfl).mono fun b σ' c => And.left

/-- There is no comma, and so there is one name at most. -/
theorem Stands.holdsSeveralNames (h : Stands x t ws σ s.cursor) :
    Finds holdsSeveralNames σ s fun b _ _ => b = false := by
  refine .bind (Q := fun found _ _ => ∀ n, found = some n → n = 1) ?_ ?_
  · refine .once (.bind h.exhausted ?_)
    rintro isExhausted σ s h
    cases isExhausted with
    | true => exact .pure ⟨none, rfl, by rintro _ ⟨⟩⟩
    | false =>
      refine .bind (h.eat .identifier nofun) ?_
      rintro found σ s ⟨htrue, -⟩
      cases found with
      | false => exact .pure ⟨none, rfl, by rintro _ ⟨⟩⟩
      | true =>
        obtain ⟨w, vs, t', -, -, -, h⟩ := htrue rfl
        refine .bind (h.lingers.eat rfl) ?_
        rintro _ σ s ⟨rfl, -⟩
        exact .pure ⟨some 1, rfl, fun n hn => (Option.some.inj hn).symm⟩
  · rintro (_ | n) σ s hone
    · exact .pure rfl
    · obtain rfl := hone n rfl
      exact .pure rfl

/-- No name comes behind another one. -/
theorem Stands.holdsParameters (h : Stands x t ws σ s.cursor) :
    Finds holdsParameters σ s fun b _ _ => b = false := by
  refine .bind (Q := fun b _ _ => b = false) ?_ ?_
  · refine .once (.bind h.exhausted ?_)
    rintro isExhausted σ s h
    cases isExhausted with
    | true => exact .pure ⟨false, rfl, rfl⟩
    | false =>
      refine .bind h.lingers.skipModifiers ?_
      rintro _ σ s h
      refine .bind h.stands.skipType ?_
      rintro passed σ s hpasses
      cases passed with
      | false => exact .pure ⟨false, rfl, rfl⟩
      | true =>
        obtain ⟨w, vs, t', -, -, hnext, h⟩ := hpasses rfl
        have hnone : t'.next .identifier = none := by
          cases t <;> cases hnext <;> rfl
        refine .bind (h.eat rfl) ?_
        rintro _ σ s ⟨rfl, h⟩
        refine .bind (h.eat_refused hnone nofun nofun) ?_
        rintro _ σ s rfl
        exact .pure ⟨false, rfl, rfl⟩
  · rintro _ σ s rfl
    exact .pure rfl

/-- The type of a cast would be names with `&` between them. It is not primitive. -/
theorem Stands.skipCastType (h : Stands x t ws σ s.cursor) :
    Finds skipCastType σ s fun found σ' c => found = none ∨ found = some false ∧
      (Inside x σ' c ∨ ∃ t' vs, t'.wantsOperand = false ∧ Stands x t' vs σ' c) := by
  refine .bind h.lingers.skipAnnotations ?_
  rintro _ σ s ⟨rfl, h⟩
  refine .bind (Q := fun primitive σ' c => primitive = false ∧ Stands x t ws σ' c) ?_ ?_
  · refine .bind (h.stands.kindAt 0) ?_
    rintro _ σ s ⟨rfl, -, h⟩
    have hturns := h.admits.takesTurns_wordAt 0
    split
    · rename_i keyword hkeyword
      rw [hkeyword] at hturns
      cases keyword <;> cases hturns
    · exact .pure ⟨rfl, h⟩
  rintro _ σ s ⟨rfl, h⟩
  refine .bind h.skipType ?_
  rintro passed σ s hpasses
  cases passed with
  | false => exact .pure (.inl rfl)
  | true =>
    obtain ⟨n, hbound, hI⟩ : ∃ n < loopBound s, Inside x σ s.cursor ∨ ∃ t' vs, vs.length = n ∧
        t'.wantsOperand = false ∧ Stands x t' vs σ s.cursor := by
      rcases (hpasses rfl).place with h | ⟨t', vs, -, hwants, h⟩
      · exact ⟨0, Nat.succ_pos _, .inl h⟩
      · exact ⟨vs.length, h.length_lt_loopBound, .inr ⟨t', vs, rfl, hwants, h⟩⟩
    refine .loop (I := fun n _ σ' c => Inside x σ' c ∨ ∃ t' vs, vs.length = n ∧
      t'.wantsOperand = false ∧ Stands x t' vs σ' c) hI hbound ?_
    rintro n intersection σ s (h | ⟨t', vs, rfl, hwants, h⟩)
    · refine .bind (h.eat .amp (by decide)) ?_
      rintro _ σ s ⟨rfl, h⟩
      exact .pure (.inr ⟨rfl, .inl h⟩)
    · refine .bind (h.eat .amp (by decide)) ?_
      rintro found σ s ⟨htrue, hfalse⟩
      cases found with
      | false => exact .pure (.inr ⟨rfl, .inr ⟨t', vs, hwants, hfalse rfl⟩⟩)
      | true =>
        obtain ⟨w, us, t'', rfl, -, -, h⟩ := htrue rfl
        refine .bind h.skipType ?_
        rintro passed σ s hpasses
        cases passed with
        | false => exact .pure (.inl rfl)
        | true =>
          rcases (hpasses rfl).place with h | ⟨t', vs, hlength, hwants, h⟩
          · exact .pure ⟨0, Nat.succ_pos _, .inl h⟩
          · exact .pure ⟨vs.length, Nat.lt_succ_of_lt hlength, .inr ⟨t', vs, rfl, hwants, h⟩⟩

/-- Casts of names with `&` between them are taken for a type, but nothing that can be cast comes
behind a closing parenthesis. -/
theorem Stands.isCast (h : Stands x t ws σ s.cursor) :
    Finds isCast σ s fun b _ _ => b = false := by
  refine .bind h.skipCastType ?_
  rintro found σ s (rfl | ⟨rfl, hplace⟩)
  · exact .pure rfl
  dsimp only
  refine .bind (Q := fun b σ' c => b = true → ∃ vs, Stands x .operator vs σ' c) ?_ ?_
  · rcases hplace with h | ⟨t', vs, hwants, h⟩
    · refine (h.eat .rightParen nofun).mono ?_
      rintro b σ' c ⟨rfl, -⟩
      exact nofun
    · refine (h.eat .rightParen nofun).mono ?_
      rintro b σ' c ⟨htrue, -⟩ hb
      obtain ⟨w, us, t'', -, -, hnext, h⟩ := htrue hb
      obtain rfl : t'' = .operator := by
        cases t' <;> cases hwants <;> cases hnext <;> rfl
      exact ⟨us, h⟩
  rintro closed σ s hcloses
  cases closed with
  | false => exact .pure rfl
  | true =>
    obtain ⟨vs, h⟩ := hcloses rfl
    refine .bind (h.kindAt 0) ?_
    rintro _ σ s ⟨rfl, -, h⟩
    have hnext := h.admits.next_wordAt
    generalize (wordAt vs 0).kind = kind at hnext
    refine .pure ?_
    rcases hnext with rfl | hsome
    · rfl
    · cases kind <;> first | rfl | cases hsome

/-! ### Going back -/

/-- A lookahead as a whole leaves the words ahead as they are. -/
theorem reaches_run {w : Lookahead α} {P : α → Prop} [Walk .free w]
    (h : s.cursor.Faces x ws) (hw : Finds w {} s fun a _ _ => P a) :
    Reaches w.run s fun a c => P a ∧ c.Faces x ws := by
  have hrun : Reaches w.run s fun a c => P a ∧ Stays x ws s.cursor c := gives_run h hw
  exact hrun.mono fun _ _ ⟨ha, hstays⟩ => ⟨ha, hstays.faces⟩

/-- A parse has come from a place and can go back there. -/
structure ComesFrom (x : Tokenized) (t : Turn) (ws : List Word) (start c : Cursor) : Prop where
  faces : start.Faces x ws
  admits : t.Admits ws
  course : Cursor.Course start.position start none c

/-- Going back to a place and passing the token there. -/
theorem ComesFrom.inside {start : Cursor} {question : Lookahead Bool}
    (h : ComesFrom x t (w :: ws) start s.cursor) [Walk (.marked start.position) question]
    (hquestion : ∀ {t' σ s}, Stands x t' ws σ s.cursor →
      Finds question σ s fun b _ _ => b = false) :
    Finds (inside start.position question) σ s fun b _ c =>
      b = false ∧ ComesFrom x t (w :: ws) start c := by
  have hreturns : Returns x (w :: ws) start s.cursor := ⟨h.faces, h.course⟩
  have hpassed (s : ParserState) (hfaces : s.cursor.Faces x (w :: ws)) :
      Finds (bump >>= fun _ => question) {} s fun b _ _ => b = false := by
    have hstands : Stands x t (w :: ws) {} s.cursor := ⟨rfl, hfaces, h.admits⟩
    refine .bind hstands.bump ?_
    rintro _ σ s ⟨t', -, hstands⟩
    exact hquestion hstands
  exact Gives.mono (hreturns.inside (E := SyntaxError.IsTooDeep) (P := (· = false)) hpassed)
    fun _ _ ⟨hb, hreturns⟩ => ⟨hb, hreturns.faces, h.admits, hreturns.course⟩

/-- A parenthesis opens nothing but an expression. -/
theorem Stands.parenKind (h : Stands x t (w :: ws) σ s.cursor) :
    Finds parenKind σ s fun kind _ _ => kind = .parenthesized := by
  unfold Lookahead.parenKind
  refine .position ?_
  have hplace : Finds Lookahead.beforeArrow σ s fun b _ c =>
      b = false ∧ ComesFrom x t (w :: ws) s.cursor c :=
    Gives.mono ((Returns.start h.faces).walk (E := SyntaxError.IsTooDeep) (P := (· = false))
      h.beforeArrow) fun _ _ ⟨hb, hreturns⟩ => ⟨hb, hreturns.faces, h.admits, hreturns.course⟩
  refine .bind hplace ?_
  rintro _ σ' s' ⟨rfl, hfrom⟩
  refine .bind (hfrom.inside Stands.holdsSeveralNames) ?_
  rintro _ σ' s' ⟨rfl, hfrom⟩
  refine .bind (hfrom.inside Stands.holdsParameters) ?_
  rintro _ σ' s' ⟨rfl, hfrom⟩
  refine .bind (hfrom.inside Stands.isCast) ?_
  rintro _ σ' s' ⟨rfl, hfrom⟩
  exact .pure rfl

end Lookahead

namespace Parser

variable {x : Tokenized} {t : Turn} {w : Word} {ws : List Word} {s : ParserState}

/-- A parenthesis is taken for one around an expression. -/
theorem reaches_classifyParen (h : s.cursor.Faces x (w :: ws)) (hadmits : t.Admits (w :: ws)) :
    Reaches classifyParen s fun kind c => kind = .parenthesized ∧ c.Faces x (w :: ws) := by
  refine .bind (reaches_peek h 0) ?_
  rintro token s' ⟨-, h, -⟩
  have hstands : Lookahead.Stands x t (w :: ws) {} s'.cursor := ⟨rfl, h, hadmits⟩
  refine .bind (Lookahead.reaches_run h hstands.parenKind) ?_
  rintro _ s' ⟨rfl, h⟩
  refine Reaches.bind (Q := fun _ c => c.Faces x (w :: ws)) ?_ ?_
  · exact .of_eq rfl h
  rintro s'' s' h
  split
  · exact .of_eq (t := s'.note _) rfl ⟨rfl, h.withJournal _⟩
  · exact .pure ⟨rfl, h⟩

/-- Nothing is taken for an expression that starts with a type. -/
theorem reaches_typePrimary? (h : s.cursor.Faces x ws) (hadmits : t.Admits ws) :
    Reaches typePrimary? s fun found c => found = none ∧ c.Faces x ws := by
  have hstands : Lookahead.Stands x t ws {} s.cursor := ⟨rfl, h, hadmits⟩
  unfold typePrimary?
  refine Lookahead.reaches_run h ?_
  refine .bind hstands.skipType ?_
  rintro passed σ s' hpasses
  cases passed with
  | false => exact .pure rfl
  | true =>
    refine .bind (Q := fun _ σ' c => Lookahead.PassesName x t ws σ' c)
      (Reaches.of_eq rfl (hpasses rfl)) ?_
    rintro seen σ' s' hpasses
    split
    · exact .pure rfl
    have hfirst : Lookahead.Finds (Lookahead.kindAt 0) σ' s' fun kind σ'' c =>
        kind.takesTurns = true ∧
          (Lookahead.Inside x σ'' c ∨ ∃ t' vs, Lookahead.Stands x t' vs σ'' c) := by
      rcases hpasses.place with h | ⟨t', vs, -, -, h⟩
      · refine (h.kindAt 0).mono ?_
        rintro kind σ'' c ⟨hgreater, h⟩
        rw [hgreater rfl]
        exact ⟨rfl, .inl h⟩
      · refine (h.kindAt 0).mono ?_
        rintro _ σ'' c ⟨rfl, -, h⟩
        exact ⟨h.admits.takesTurns_wordAt 0, .inr ⟨t', vs, h⟩⟩
    refine .bind hfirst ?_
    rintro first σ' s' ⟨hturns, hplace⟩
    refine .bind (Q := fun _ _ _ => True) ?_ ?_
    · rcases hplace with h | ⟨t', vs, h⟩
      · exact (h.kindAt 1).mono fun _ _ _ _ => trivial
      · exact (h.kindAt 1).mono fun _ _ _ _ => trivial
    rintro second σ' s' -
    have hcolons : first ≠ .colonColon := by
      rintro rfl
      cases hturns
    have hdot : first ≠ .dot := by
      rintro rfl
      cases hturns
    rw [if_neg hcolons, if_neg fun h => hdot h.1]
    exact .pure rfl

end Parser

end JavaSyntax
