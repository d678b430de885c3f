import JavaSyntax.Proofs.Syntax.Lift
import JavaSyntax.Proofs.Syntax.Pace

/-!
# Lookaheads are lifted

A lookahead opens no production, so it sees the same tokens and gives the same answers wherever it
is nested. What it notes down about a decision may differ.
-/

set_option synthInstance.maxSize 16384

namespace JavaSyntax

open JavaSyntax.Parser Work

/-- A lookahead that lifts to itself, whatever it keeps in mind at the start. -/
class Lookahead.Lifts (n : Nat) {α : Type} (w : Lookahead α) : Prop where
  lifts : ∀ σ, Parser.Lifts n (w σ) (w σ)

namespace Lookahead

variable {n : Nat} {α β : Type} {w v : Lookahead α} {f : α → Lookahead β}

namespace Lifts

instance (a : α) : Lifts n (pure a : Lookahead α) where
  lifts σ := inferInstanceAs (Parser.Lifts n (pure (a, σ)) (pure (a, σ)))

/-- Lookaheads that lift may follow each other. -/
theorem seq (hw : Lifts n w) (hf : ∀ a, Lifts n (f a)) : Lifts n (w >>= f) where
  lifts σ := by
    rw [Lookahead.bind_eq]
    exact Parser.Lifts.seq (hw.lifts σ) fun r => (hf r.1).lifts r.2

instance [hw : Lifts n w] [hf : ∀ a, Lifts n (f a)] : Lifts n (w >>= f) := hw.seq hf

instance {c : Prop} [Decidable c] [Lifts n w] [Lifts n v] : Lifts n (if c then w else v) := by
  split <;> infer_instance

instance : Lifts n (get : Lookahead LookaheadState) where
  lifts σ := inferInstanceAs (Parser.Lifts n (pure (σ, σ)) (pure (σ, σ)))

instance (σ' : LookaheadState) : Lifts n (set σ' : Lookahead PUnit) where
  lifts _ := inferInstanceAs (Parser.Lifts n (pure (PUnit.unit, σ')) (pure (PUnit.unit, σ')))

instance (g : LookaheadState → LookaheadState) : Lifts n (modify g : Lookahead PUnit) where
  lifts σ := inferInstanceAs (Parser.Lifts n (pure (PUnit.unit, g σ)) (pure (PUnit.unit, g σ)))

instance (p : Parser α) [Parser.Lifts n p p] : Lifts n (liftM p : Lookahead α) where
  lifts σ := inferInstanceAs
    (Parser.Lifts n (p >>= fun a => pure (a, σ)) (p >>= fun a => pure (a, σ)))

/-- A lookahead may remember where it stands to go back there. -/
instance {f : Nat → Lookahead β} [hf : ∀ k, Lifts k (f k)] :
    Lifts n ((liftM Parser.position : Lookahead Nat) >>= f) where
  lifts σ := by
    rw [Lookahead.position_bind_eq]
    have := fun k => (hf k).lifts σ
    infer_instance

/-- Loops of lookaheads lift if their steps do. -/
theorem looping {step : α → Lookahead (Step α β)} (hstep : ∀ a, Lifts n (step a)) (a : α) :
    Lifts n (Lookahead.loop step a) where
  lifts σ := by
    have hstepped (x : α × LookaheadState) :
        Parser.Lifts n (Lookahead.stepped step x) (Lookahead.stepped step x) := by
      have := (hstep x.1).lifts x.2
      unfold Lookahead.stepped
      infer_instance
    rw [Lookahead.loop_eq]
    infer_instance

instance {step : α → Lookahead (Step α β)} [hstep : ∀ a, Lifts n (step a)] (a : α) :
    Lifts n (Lookahead.loop step a) := looping hstep a

end Lifts

/-! ### Single tokens -/

instance (k : Nat) : Lifts n (kindAt k) := by unfold kindAt; infer_instance

instance : Lifts n currentKind := by unfold currentKind; infer_instance

instance (kind : TokenKind) : Lifts n (check kind) := by unfold check; infer_instance

instance (first second : TokenKind) : Lifts n (checkPair first second) := by
  unfold checkPair
  infer_instance

instance : Lifts n bump where
  lifts σ := by
    rw [bump_eq]
    infer_instance

instance (kind : TokenKind) : Lifts n (eat kind) := by unfold eat; infer_instance

instance (remaining : Nat) : Lifts n (openShift remaining) := by
  unfold openShift
  infer_instance

instance : Lifts n bumpClosingAngle := by
  unfold bumpClosingAngle
  refine Lifts.seq inferInstance fun kind => ?_
  dsimp only
  split <;> infer_instance

instance : Lifts n exhausted := by unfold exhausted; infer_instance

instance : Lifts n (rewind n) := by unfold rewind; infer_instance

instance : Lifts n skipDimensions := by unfold skipDimensions; infer_instance

/-! ### Names, groups and annotations -/

instance : Lifts n skipBalanced := by
  unfold skipBalanced
  refine Lifts.looping (fun depth => Lifts.seq inferInstance fun found => ?_) 0
  split
  · infer_instance
  · refine Lifts.seq inferInstance fun kind => ?_
    split <;> infer_instance

instance : Lifts n skipQualifiedName := by unfold skipQualifiedName; infer_instance

instance : Lifts n atAnnotation := by unfold atAnnotation; infer_instance

instance : Lifts n skipAnnotation := by unfold skipAnnotation; infer_instance

instance : Lifts n skipAnnotations := by unfold skipAnnotations; infer_instance

instance : Lifts n skipModifiers := by unfold skipModifiers; infer_instance

/-! ### Types -/

section Types

variable (w : Lookahead Bool) [∀ k, Lifts k w]

instance : Lifts n (skipTypeArgument w) := by
  unfold skipTypeArgument
  refine Lifts.seq inferInstance fun found => ?_
  split
  · refine Lifts.seq inferInstance fun kind => ?_
    split <;> infer_instance
  · infer_instance

instance : Lifts n (skipTypeArguments w) := by unfold skipTypeArguments; infer_instance

instance : Lifts n (skipOptionalArguments w) := by unfold skipOptionalArguments; infer_instance

instance : Lifts n atSegment := by unfold atSegment; infer_instance

instance : Lifts n (skipClassType w) := by unfold skipClassType; infer_instance

instance : Lifts n (skipElementType w) := by
  unfold skipElementType
  refine Lifts.seq inferInstance fun kind => ?_
  split <;> infer_instance

end Types

/-- A type is passed in the same way at any depth. -/
theorem lifts_skipTypeWithin (k : Nat) : Lifts n (skipTypeWithin k) := by
  induction k generalizing n with
  | zero =>
    rw [skipTypeWithin]
    infer_instance
  | succ k ih =>
    rw [skipTypeWithin]
    infer_instance

instance : Lifts n skipType := lifts_skipTypeWithin _

/-! ### Lists -/

instance : Lifts n skipIdentifierList := by unfold skipIdentifierList; infer_instance

instance : Lifts n skipFormalParameters := by unfold skipFormalParameters; infer_instance

instance : Lifts n atPrimitive := by
  unfold atPrimitive
  refine Lifts.seq inferInstance fun kind => ?_
  split <;> infer_instance

instance : Lifts n skipCastType := by unfold skipCastType; infer_instance

/-! ### What a parenthesis opens -/

instance : Lifts n beforeArrow := by unfold beforeArrow; infer_instance

instance : Lifts n holdsNames := by
  unfold holdsNames
  refine Lifts.seq inferInstance fun isEmpty => ?_
  split
  · infer_instance
  · refine Lifts.seq inferInstance fun count => ?_
    split <;> infer_instance

instance : Lifts n holdsSeveralNames := by
  unfold holdsSeveralNames
  refine Lifts.seq inferInstance fun count => ?_
  split <;> infer_instance

instance : Lifts n holdsParameters := by unfold holdsParameters; infer_instance

instance : Lifts n isCast := by
  unfold isCast
  refine Lifts.seq inferInstance fun primitive => ?_
  split <;> infer_instance

instance (w : Lookahead Bool) [Lifts n w] : Lifts n (inside n w) := by
  unfold inside
  infer_instance

instance : Lifts n parenKind := by unfold parenKind; infer_instance

/-- A lookahead as a whole goes back to where it started. -/
instance {α : Type} {w : Lookahead α} [hw : ∀ k, Lifts k w] : Parser.Lifts n w.run w.run := by
  have hback (k : Nat) : Parser.Lifts k (andThen (·.restorePosition k) (Prod.fst <$> w {}))
      (andThen (·.restorePosition k) (Prod.fst <$> w {})) := by
    constructor
    intro i j s t hst hn
    have hfirst : Parser.Lifts k (Prod.fst <$> w {}) (Prod.fst <$> w {}) :=
      have := (hw k).lifts {}
      inferInstance
    have hends := hfirst.surfaces hst hn
    unfold andThen
    generalize (Prod.fst <$> w {}) s = first at hends
    generalize (Prod.fst <$> w {}) t = second at hends
    cases hends with
    | tooDeep found span s' => exact .tooDeep found span _ _
    | ok a hst' hn' =>
      exact .ok a (hst'.withCursor (hst'.cursor.restore k) (hst'.sound.restore hn'))
        (Nat.le_refl k)
    | error e => exact .error e _ _
  have hrun : Parser.Lifts n
      (Parser.position >>= fun k => andThen (·.restorePosition k) (Prod.fst <$> w {}))
      (Parser.position >>= fun k => andThen (·.restorePosition k) (Prod.fst <$> w {})) :=
    inferInstance
  exact hrun

end Lookahead

namespace Parser

variable {n : Nat}

/-! ### The questions of the grammar -/

/-- What is noted down about a decision makes no difference. -/
instance : Lifts n classifyParen classifyParen := by
  unfold classifyParen
  refine Lifts.seq inferInstance fun token => Lifts.seq inferInstance fun kind => ⟨?_⟩
  intro i j s t hst hn
  have hends (j' k : Array LogEvent) : Surfaces i j n
      (.ok kind, { s with cursor := { s.cursor with journal := j' } })
      (.ok kind, { t with cursor := { t.cursor with journal := k } }) :=
    .ok kind (hst.withCursor (hst.cursor.withJournal j' k) (hst.sound.withJournal j')) hn
  rw [bind_apply, bind_apply, get_apply, get_apply]
  dsimp only
  split <;> split <;> exact hends _ _

instance : Lifts n atLocalVariable atLocalVariable := by
  unfold atLocalVariable
  infer_instance

instance : Lifts n atEnhancedFor atEnhancedFor := by unfold atEnhancedFor; infer_instance

instance : Lifts n atPattern atPattern := by unfold atPattern; infer_instance

instance : Lifts n typePrimary? typePrimary? := by unfold typePrimary?; infer_instance

instance : Lifts n atYield atYield := by unfold atYield; infer_instance

end Parser

end JavaSyntax
