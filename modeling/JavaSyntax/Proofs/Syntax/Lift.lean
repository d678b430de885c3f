import JavaSyntax.Proofs.Syntax.Runs
import JavaSyntax.Proofs.Token.Renoted

/-!
# Parsers that are lifted

The depth of nesting decides about a parse at the guards only. A parser lifts to another one if
the other one, started in a state with fewer productions open, comes to the same whenever the
first one is not nested too deep: to the same result with the same cursor, or to the same error.
What was noted down may differ. Both parsers are put together from the same parts, so the relation
is derived step by step, one instance for each way to put parsers together.

A guard that refuses looks at the token that comes next, which the lexer may refuse in turn. The
other parser, which is not refused, has to look at that token first as well.
-/

set_option synthInstance.maxSize 4096

namespace JavaSyntax

open JavaSyntax.Parser Work

/-! ### States and outcomes -/

/-- Two states with the same cursor and so many productions open, in the first one no fewer. -/
structure ParserState.Deeper (i j : Nat) (s t : ParserState) : Prop where
  cursor : s.cursor.Renoted t.cursor
  sound : s.cursor.Sound
  depth_eq : s.depth = i
  depth_eq' : t.depth = j
  le : j ≤ i
  lambdas_eq : t.lambdas = s.lambdas

namespace Parser

/-- Unless a run is nested too deep, another one comes to the same. Neither has gone back before
a position, and each has as many productions open as it had at the start. -/
inductive Surfaces (i j n : Nat) {α : Type} :
    Except SyntaxError α × ParserState → Except SyntaxError α × ParserState → Prop
  | tooDeep (found : String) (span : Span) (s : ParserState)
      (y : Except SyntaxError α × ParserState) : Surfaces i j n (.error (.tooDeep found span), s) y
  | ok (a : α) {s t : ParserState} (hst : s.Deeper i j t) (hn : n ≤ s.cursor.position) :
      Surfaces i j n (.ok a, s) (.ok a, t)
  | error (e : SyntaxError) (s t : ParserState) : Surfaces i j n (.error e, s) (.error e, t)

/-- A parser that comes to the same as another one which is nested less deep, started at a
position or behind it, unless it is nested too deep. -/
class Lifts (n : Nat) {α : Type} (p q : Parser α) : Prop where
  surfaces : ∀ {i j : Nat} {s t : ParserState}, s.Deeper i j t → n ≤ s.cursor.position →
    Surfaces i j n (p s) (q t)

/-- A parser that fails where the lexer refuses the next token. -/
class LooksFirst {α : Type} (p : Parser α) : Prop where
  refused : ∀ {s : ParserState} {e : SyntaxError}, (peek 0 s).1 = .error e → (p s).1 = .error e

end Parser

/-! ### Guarded productions from the inside -/

namespace Parser

/-- To open a production only notes something down. -/
theorem renoted_entered (context : String) (s : ParserState) :
    s.cursor.Renoted (entered context s).cursor :=
  ⟨_, (pushContext_eq context { s with depth := s.depth + 1 }).1⟩

/-- To open a production goes one deeper. -/
theorem depth_entered (context : String) (s : ParserState) :
    (entered context s).depth = s.depth + 1 := by
  unfold entered ParserState.pushContext
  dsimp only
  split <;> rfl

/-- To open a production leaves the rule for arrows as it is. -/
theorem lambdas_entered (context : String) (s : ParserState) :
    (entered context s).lambdas = s.lambdas := by
  unfold entered ParserState.pushContext
  dsimp only
  split <;> rfl

end Parser

namespace ParserState.Deeper

variable {i j : Nat} {s t : ParserState}

/-- States at different depths stand at the same place. -/
theorem position_eq (h : s.Deeper i j t) : t.cursor.position = s.cursor.position :=
  h.cursor.position_eq

/-- States at different depths read the same text. -/
theorem text_eq (h : s.Deeper i j t) : t.cursor.text = s.cursor.text := h.cursor.text_eq

/-- A state that is less deep has a settled cursor too. -/
theorem settled (h : s.Deeper i j t) : t.cursor.Settled := h.sound.settled.renoted h.cursor

/-- Both cursors may change, as long as they differ in their notes alone. -/
theorem withCursor {c d : Cursor} (h : s.Deeper i j t) (hcursor : c.Renoted d) (hc : c.Sound) :
    ({ s with cursor := c } : ParserState).Deeper i j { t with cursor := d } :=
  ⟨hcursor, hc, h.depth_eq, h.depth_eq', h.le, h.lambdas_eq⟩

/-- The rule for arrows is changed on both sides. -/
theorem withLambdas (h : s.Deeper i j t) {a b : Bool} (hab : b = a) :
    ({ s with lambdas := a } : ParserState).Deeper i j { t with lambdas := b } :=
  ⟨h.cursor, h.sound, h.depth_eq, h.depth_eq', h.le, hab⟩

/-- The deeper side may go deeper still. -/
theorem enteredLeft (h : s.Deeper i j t) (context : String) :
    (entered context s).Deeper (i + 1) j t := by
  obtain ⟨journal, hcursor⟩ := renoted_entered context s
  obtain ⟨journal', ht⟩ := h.cursor
  refine ⟨⟨journal', ?_⟩, ?_, ?_, h.depth_eq', Nat.le_succ_of_le h.le, ?_⟩
  · rw [hcursor, ht]
  · rw [hcursor]
    exact h.sound.withJournal journal
  · rw [depth_entered, h.depth_eq]
  · rw [lambdas_entered, h.lambdas_eq]

/-- The other side may go deeper as long as it does not overtake. -/
theorem enteredRight (h : s.Deeper i j t) (hlt : j < i) (context : String) :
    s.Deeper i (j + 1) (entered context t) := by
  obtain ⟨journal, hcursor⟩ := renoted_entered context t
  refine ⟨⟨journal, ?_⟩, h.sound, h.depth_eq, ?_, hlt, ?_⟩
  · obtain ⟨journal', ht⟩ := h.cursor
    rw [hcursor, ht]
  · rw [depth_entered, h.depth_eq']
  · rw [lambdas_entered, h.lambdas_eq]

/-- The deeper side may come back, as long as the other one is not overtaken. -/
theorem leaveLeft (h : s.Deeper (i + 1) j t) (hle : j ≤ i) : s.leave.Deeper i j t :=
  ⟨h.cursor, h.sound, congrArg (· - 1) h.depth_eq, h.depth_eq', hle, h.lambdas_eq⟩

/-- The other side may come back. -/
theorem leaveRight (h : s.Deeper i (j + 1) t) : s.Deeper i j t.leave :=
  ⟨h.cursor, h.sound, h.depth_eq, congrArg (· - 1) h.depth_eq', Nat.le_of_succ_le h.le,
    h.lambdas_eq⟩

end ParserState.Deeper

namespace Parser

variable {i j n : Nat} {s t : ParserState} {α β : Type} {p q p' q' : Parser α}
  {f g : α → Parser β}

/-- Runs that have not gone back before a place have not gone back before an earlier one. -/
theorem Surfaces.mono {m : Nat} {x y : Except SyntaxError α × ParserState}
    (h : Surfaces i j m x y) (hn : n ≤ m) : Surfaces i j n x y := by
  cases h with
  | tooDeep found span s y => exact .tooDeep found span s y
  | ok a hst hm => exact .ok a hst (Nat.le_trans hn hm)
  | error e s t => exact .error e s t

/-- The run that is nested deeper leaves a production. -/
theorem Surfaces.leaveLeft {x y : Except SyntaxError α × ParserState}
    (h : Surfaces (i + 1) j n x y) (hle : j ≤ i) : Surfaces i j n (x.1, x.2.leave) y := by
  cases h with
  | tooDeep found span s y => exact .tooDeep found span _ _
  | ok a hst hn => exact .ok a (hst.leaveLeft hle) hn
  | error e s t => exact .error e _ _

/-- The run that is nested less deep leaves a production. -/
theorem Surfaces.leaveRight {x y : Except SyntaxError α × ParserState}
    (h : Surfaces i (j + 1) n x y) : Surfaces i j n x (y.1, y.2.leave) := by
  cases h with
  | tooDeep found span s y => exact .tooDeep found span _ _
  | ok a hst hn => exact .ok a hst.leaveRight hn
  | error e s t => exact .error e _ _

/-- The moves of the cursor keep the rest of the state. -/
theorem surfaces_read {x : Reading α} (hst : s.Deeper i j t) (hn : n ≤ s.cursor.position)
    (hsame : Cursor.SameReading (x s.cursor) (x t.cursor))
    (hlooks : Cursor.Looks s.cursor (x s.cursor)) :
    Surfaces i j n (read x s) (read x t) := by
  obtain ⟨hresult, hcursor⟩ := hsame
  obtain ⟨hcourse, -⟩ := hlooks
  rw [read_apply, read_apply]
  generalize x s.cursor = first at hresult hcursor hcourse
  generalize x t.cursor = second at hresult hcursor
  obtain ⟨result, c⟩ := first
  obtain ⟨_, d⟩ := second
  cases hresult
  cases result with
  | error e => exact .error (.lexical e) _ _
  | ok a =>
    exact .ok a (hst.withCursor hcursor (hst.sound.course hcourse))
      (Nat.le_trans hn hcourse.le_position)

/-- A look ahead comes to the same on both sides. -/
theorem surfaces_peek (hst : s.Deeper i j t) (hn : n ≤ s.cursor.position) (k : Nat) :
    Surfaces i j n (peek k s) (peek k t) :=
  surfaces_read hst hn (hst.cursor.peekAhead k) (hst.sound.settled.peekAhead k).1

/-- Two runs go on where two others have ended, unless those failed. -/
theorem surfaces_bind (hends : Surfaces i j n (p s) (q t))
    (hf : ∀ {a : α} {s' t' : ParserState}, p s = (.ok a, s') → q t = (.ok a, t') →
      s'.Deeper i j t' → n ≤ s'.cursor.position → Surfaces i j n (f a s') (g a t')) :
    Surfaces i j n ((p >>= f) s) ((q >>= g) t) := by
  rw [bind_apply, bind_apply]
  generalize p s = first at hends hf
  generalize q t = second at hends hf
  cases hends with
  | tooDeep found span s' => exact .tooDeep found span s' _
  | ok a hst hn => exact hf rfl rfl hst hn
  | error e s' t' => exact .error e s' t'

/-! ### Looking first -/

namespace LooksFirst

instance : LooksFirst (peek 0) where
  refused he := he

instance [hp : LooksFirst p] : LooksFirst (p >>= f) where
  refused {s e} he := by
    have hrefused := hp.refused he
    rw [bind_apply]
    generalize p s = outcome at hrefused
    obtain ⟨_ | a, s'⟩ := outcome
    · cases hrefused
      rfl
    · cases hrefused

instance : LooksFirst advance where
  refused {s e} he := by
    rw [peek, read_apply] at he
    rw [advance, read_apply, Cursor.advance_apply]
    generalize Cursor.peekAhead 0 s.cursor = outcome at he
    obtain ⟨_ | t, c⟩ := outcome
    · cases he
      rfl
    · cases he

instance : LooksFirst currentKind := by unfold currentKind peekKind; infer_instance

instance (kind : TokenKind) : LooksFirst (check kind) := by unfold check; infer_instance

instance (keyword : Keyword) : LooksFirst (checkKeyword keyword) := by
  unfold checkKeyword
  infer_instance

instance (word : String) : LooksFirst (checkWord word) := by
  unfold checkWord peekIsWord
  infer_instance

instance (kind : TokenKind) : LooksFirst (expect kind) := by unfold expect; infer_instance

instance : LooksFirst (refuseDepth : Parser α) := by unfold refuseDepth; infer_instance

/-- To remember where a parser stands takes no look at a token. -/
instance {f : Nat → Parser α} [hf : ∀ k, LooksFirst (f k)] : LooksFirst (position >>= f) where
  refused he := by
    rw [position_bind_apply]
    exact (hf _).refused he

/-- A refusal by the lexer is met on both sides. -/
theorem peek_renoted {e : SyntaxError} (h : s.cursor.Renoted t.cursor)
    (he : (peek 0 s).1 = .error e) : (peek 0 t).1 = .error e := by
  rw [peek, read_apply] at he ⊢
  rw [← (h.peekAhead 0).1]
  exact he

instance (context : String) [hp : LooksFirst p] : LooksFirst (guarded context p) where
  refused {s e} he := by
    rw [guarded_apply]
    split
    · generalize peek 0 s = outcome at he
      obtain ⟨_ | t, s'⟩ := outcome
      · cases he
        rfl
      · cases he
    · exact hp.refused (peek_renoted (renoted_entered context s) he)

instance (allowed : Bool) [hp : LooksFirst p] : LooksFirst (withLambdas allowed p) where
  refused he := by
    rw [withLambdas_apply]
    exact hp.refused (peek_renoted ⟨_, rfl⟩ he)

instance {step : α → Parser (Step α β)} [hstep : ∀ a, LooksFirst (step a)] (a : α) :
    LooksFirst (loop step a) where
  refused {s e} he := by
    have hfirst : LooksFirst (loopFor step (loopBound s) a) := by
      rw [loopBound, loopFor]
      infer_instance
    exact hfirst.refused he

instance {condition : Parser Bool} [LooksFirst condition] {item : Parser α} :
    LooksFirst (manyWhile condition item) := by
  unfold manyWhile
  infer_instance

end LooksFirst

namespace Lifts

/-! ### Results and sequences -/

instance (a : α) : Lifts n (Pure.pure a : Parser α) (Pure.pure a) where
  surfaces hst hn := .ok a hst hn

instance (e : SyntaxError) : Lifts n (throw e : Parser α) (throw e) where
  surfaces _ _ := .error e _ _

/-- Steps that lift may follow each other. -/
theorem seq (hp : Lifts n p q) (hf : ∀ a, Lifts n (f a) (g a)) : Lifts n (p >>= f) (q >>= g) where
  surfaces hst hn :=
    surfaces_bind (hp.surfaces hst hn) fun _ _ hst' hn' => (hf _).surfaces hst' hn'

instance [hp : Lifts n p q] [hf : ∀ a, Lifts n (f a) (g a)] : Lifts n (p >>= f) (q >>= g) :=
  seq hp hf

instance {h : α → β} [hp : Lifts n p q] : Lifts n (h <$> p) (h <$> q) := by
  rw [map_eq_pure_bind, map_eq_pure_bind]
  infer_instance

instance {c : Prop} [Decidable c] [hp : Lifts n p q] [hp' : Lifts n p' q'] :
    Lifts n (if c then p else p') (if c then q else q') := by
  split
  · exact hp
  · exact hp'

/-! ### Looking and taking -/

instance (k : Nat) : Lifts n (peek k) (peek k) where
  surfaces hst hn := surfaces_peek hst hn k

instance : Lifts n advance advance where
  surfaces hst hn := surfaces_read hst hn hst.cursor.advance hst.sound.settled.advance

instance : Lifts n closing? closing? where
  surfaces {i j s t} hst hn := by
    rw [closing?_eq]
    exact surfaces_read hst hn (hst.cursor.closing? hst.sound.settled) hst.sound.settled.closing?

/-- A `>` that starts a token is taken by both or by neither. -/
instance [hp : Lifts n p q] [hp' : Lifts n p' q'] :
    Lifts n (splitGreater >>= fun found => if found = true then advance >>= fun _ => p else p')
      (splitGreater >>= fun found => if found = true then advance >>= fun _ => q else q') := by
  rw [splitGreater_bind_eq, splitGreater_bind_eq]
  refine seq inferInstance fun found => ?_
  cases found with
  | none => exact hp'
  | some => exact hp

instance (expected : String) : Lifts n (unexpected expected : Parser α) (unexpected expected) := by
  unfold unexpected
  infer_instance

/-- Where a parser refuses to go deeper, another one fails alike if the lexer refuses. -/
instance (priority := low) [hq : LooksFirst q] : Lifts n refuseDepth q where
  surfaces {i j s t} hst hn := by
    have hpeek := surfaces_peek hst hn 0
    have hrefused {e} (he : (peek 0 t).1 = .error e) := hq.refused he
    unfold refuseDepth
    rw [bind_apply]
    generalize peek 0 s = first at hpeek
    generalize peek 0 t = second at hpeek hrefused
    cases hpeek with
    | tooDeep found span s' => exact .tooDeep found span s' _
    | ok u => exact .tooDeep u.display u.span _ _
    | error e s' t' =>
      have herror := hrefused rfl
      generalize q t = outcome at herror
      obtain ⟨_, t''⟩ := outcome
      cases herror
      exact .error e s' t''

/-! ### Positions, nodes and the state around -/

/-- A parser may remember where it stands. -/
theorem marking {f g : Nat → Parser α} (hf : ∀ k, Lifts k (f k) (g k)) :
    Lifts n (position >>= f) (position >>= g) where
  surfaces hst hn := by
    rw [position_bind_apply, position_bind_apply, hst.position_eq]
    exact ((hf _).surfaces hst (Nat.le_refl _)).mono hn

instance {f g : Nat → Parser α} [hf : ∀ k, Lifts k (f k) (g k)] :
    Lifts n (position >>= f) (position >>= g) := marking hf

instance : Lifts n (restore n) (restore n) where
  surfaces hst hn :=
    Surfaces.ok () (hst.withCursor (hst.cursor.restore n) (hst.sound.restore hn)) (Nat.le_refl n)

instance {f : Form} (start : Nat) (tree : Tree f) :
    Lifts n (node start tree) (node start tree) where
  surfaces {i j s t} hst hn := by
    have hspan : t.cursor.spanFrom start = s.cursor.spanFrom start := by
      obtain ⟨journal, h⟩ := hst.cursor
      rw [h]
      rfl
    have htext : t.cursor.sourceText = s.cursor.sourceText := by
      obtain ⟨journal, h⟩ := hst.cursor
      rw [h]
      rfl
    rw [node_apply, node_apply, hspan, htext]
    exact .ok _ hst hn

/-- At a guard that refuses, the other parser may be let in. -/
theorem surfaces_guardedLeft [LooksFirst q] (context : String) (hst : s.Deeper i j t)
    (hn : n ≤ s.cursor.position)
    (h : i < Limits.maxParseDepth → Surfaces (i + 1) j n (p (entered context s)) (q t)) :
    Surfaces i j n (guarded context p s) (q t) := by
  rw [guarded_apply]
  split
  · have hrefuse : Lifts n refuseDepth q := inferInstance
    have hends := hrefuse.surfaces hst hn
    unfold refuseDepth at hends
    rw [bind_apply] at hends
    generalize peek 0 s = outcome at hends ⊢
    obtain ⟨e | u, s'⟩ := outcome
    · exact hends
    · exact .tooDeep u.display u.span _ _
  · rename_i hopen
    rw [hst.depth_eq] at hopen
    exact (h (Nat.lt_of_not_le hopen)).leaveLeft hst.le

/-- A guard lets a parser in if another one that is nested deeper was let in. -/
theorem surfaces_guardedRight {x : Except SyntaxError α × ParserState} (context : String)
    (hst : s.Deeper i j t) (hlt : j < i) (hlimit : i ≤ Limits.maxParseDepth)
    (h : Surfaces i (j + 1) n x (q (entered context t))) :
    Surfaces i j n x (guarded context q t) := by
  have hopen : ¬ Limits.maxParseDepth ≤ t.depth := by
    rw [hst.depth_eq']
    omega
  rw [guarded_apply, if_neg hopen]
  exact h.leaveRight

instance (context : String) [hp : Lifts n p q] [hq : LooksFirst q] :
    Lifts n (guarded context p) (guarded context q) where
  surfaces {i j s t} hst hn := by
    refine surfaces_guardedLeft context hst hn fun hlimit => ?_
    have hlt : j < i + 1 := Nat.lt_succ_of_le hst.le
    refine surfaces_guardedRight context (hst.enteredLeft context) hlt hlimit ?_
    refine hp.surfaces ((hst.enteredLeft context).enteredRight hlt context) ?_
    rw [(renoted_entered context s).position_eq]
    exact hn

instance (allowed : Bool) [hp : Lifts n p q] :
    Lifts n (withLambdas allowed p) (withLambdas allowed q) where
  surfaces {i j s t} hst hn := by
    have hends := hp.surfaces (hst.withLambdas (a := allowed) (b := allowed) rfl) hn
    rw [withLambdas_apply, withLambdas_apply]
    generalize p { s with lambdas := allowed } = first at hends
    generalize q { t with lambdas := allowed } = second at hends
    cases hends with
    | tooDeep found span => exact .tooDeep found span _ _
    | ok a hst' hn' => exact .ok a (hst'.withLambdas hst.lambdas_eq) hn'
    | error e => exact .error e _ _

/-- Both sides may ask whether arrows start lambdas. -/
instance (b : Bool) [hp : Lifts n p q] [hp' : Lifts n p' q'] :
    Lifts n (get >>= fun s => if (b && s.lambdas) = true then p else p')
      (get >>= fun s => if (b && s.lambdas) = true then q else q') where
  surfaces {i j s t} hst hn := by
    rw [bind_apply, bind_apply, get_apply, get_apply]
    dsimp only
    rw [hst.lambdas_eq]
    split
    · exact hp.surfaces hst hn
    · exact hp'.surfaces hst hn

/-! ### Questions and demands -/

instance (k : Nat) : Lifts n (peekKind k) (peekKind k) := by unfold peekKind; infer_instance

instance : Lifts n currentKind currentKind := by unfold currentKind; infer_instance

instance (kind : TokenKind) : Lifts n (check kind) (check kind) := by unfold check; infer_instance

instance (keyword : Keyword) : Lifts n (checkKeyword keyword) (checkKeyword keyword) := by
  unfold checkKeyword
  infer_instance

instance (k : Nat) (word : String) : Lifts n (peekIsWord k word) (peekIsWord k word) := by
  unfold peekIsWord
  infer_instance

instance (word : String) : Lifts n (checkWord word) (checkWord word) := by
  unfold checkWord
  infer_instance

instance (kind : TokenKind) : Lifts n (eat kind) (eat kind) := by unfold eat; infer_instance

instance (keyword : Keyword) : Lifts n (eatKeyword keyword) (eatKeyword keyword) := by
  unfold eatKeyword
  infer_instance

instance (word : String) : Lifts n (eatWord word) (eatWord word) := by
  unfold eatWord
  infer_instance

instance (kind : TokenKind) : Lifts n (expect kind) (expect kind) := by
  unfold expect
  infer_instance

instance (keyword : Keyword) : Lifts n (expectKeyword keyword) (expectKeyword keyword) := by
  unfold expectKeyword
  infer_instance

instance : Lifts n expectIdentifier expectIdentifier := by unfold expectIdentifier; infer_instance

instance : Lifts n expectTypeIdentifier expectTypeIdentifier := by
  unfold expectTypeIdentifier
  infer_instance

instance (word : String) : Lifts n (expectWord word) (expectWord word) := by
  unfold expectWord
  infer_instance

/-! ### Repetition -/

section Repetition

variable {step step' : α → Parser (Step α β)}

/-- Loops with steps that lift do so too. -/
theorem loopFor_lifts (hstep : ∀ a, Lifts n (step a) (step' a)) (fuel : Nat) (a : α) :
    Lifts n (loopFor step fuel a) (loopFor step' fuel a) := by
  induction fuel generalizing a with
  | zero =>
    rw [loopFor, loopFor]
    infer_instance
  | succ fuel ih =>
    rw [loopFor, loopFor]
    refine seq (hstep a) fun outcome => ?_
    cases outcome with
    | again a => exact ih a
    | done b =>
      dsimp only
      infer_instance

/-- Both loops have the same text, and so the same fuel. -/
instance [hstep : ∀ a, Lifts n (step a) (step' a)] (a : α) :
    Lifts n (loop step a) (loop step' a) where
  surfaces {i j s t} hst hn := by
    have hbound : loopBound t = loopBound s := by rw [loopBound, hst.text_eq, loopBound]
    change Surfaces i j n (loopFor step (loopBound s) a s) (loopFor step' (loopBound t) a t)
    rw [hbound]
    exact (loopFor_lifts hstep (loopBound s) a).surfaces hst hn

variable {condition condition' : Parser Bool} {item item' : Parser α}

instance [hc : Lifts n condition condition'] [hi : Lifts n item item'] :
    Lifts n (manyWhile condition item) (manyWhile condition' item') := by
  unfold manyWhile
  infer_instance

instance {item item' : Parser (Option α)} [hi : Lifts n item item'] :
    Lifts n (many item) (many item') := by
  have hstep (items : List α) : Lifts n
      (item >>= fun
        | some x => Pure.pure (Step.again (x :: items))
        | none => Pure.pure (Step.done items.reverse))
      (item' >>= fun
        | some x => Pure.pure (Step.again (x :: items))
        | none => Pure.pure (Step.done items.reverse)) := by
    refine seq hi fun found => ?_
    cases found <;> infer_instance
  unfold many
  infer_instance

instance (kind : TokenKind) [hi : Lifts n item item'] :
    Lifts n (manyUntil kind item) (manyUntil kind item') := by
  unfold manyUntil
  infer_instance

instance (kind : TokenKind) [hi : Lifts n item item'] :
    Lifts n (separatedBy kind item) (separatedBy kind item') := by
  unfold separatedBy
  infer_instance

instance (kind : TokenKind) [hi : Lifts n item item'] :
    Lifts n (trailingCommas kind item) (trailingCommas kind item') := by
  unfold trailingCommas
  infer_instance

instance (kind : TokenKind) [hi : Lifts n item item'] :
    Lifts n (after? kind item) (after? kind item') := by
  unfold after?
  infer_instance

instance (kind : TokenKind) [hi : Lifts n item item'] :
    Lifts n (at? kind item) (at? kind item') := by
  unfold at?
  infer_instance

end Repetition

end Lifts

end Parser

end JavaSyntax
