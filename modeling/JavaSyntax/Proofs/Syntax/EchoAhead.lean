import JavaSyntax.Proofs.Syntax.Echo
import JavaSyntax.Proofs.Syntax.Pace

/-!
# Lookaheads echo each other

A lookahead that is run on both sides of a mirror sees the same kinds of tokens, gives the same
answers and keeps the same things in mind. A bracketed group is passed from outside of a token
only, since nothing else would keep the loop that passes it within its fuel.
-/

set_option synthInstance.maxSize 16384

namespace JavaSyntax

open JavaSyntax.Parser Work

namespace Mirror

/-- A lookahead that comes to the same on both sides, whatever it keeps in mind at the start. -/
class Walks (M : Mirror) (n : Nat) {α : Type} [M.Likeness α] (w : Lookahead α) : Prop where
  echoes : ∀ σ, M.Echoes n (w σ) (w σ)

/-- A lookahead that comes to the same on both sides if it does not start inside of a token. -/
class WalksFlat (M : Mirror) (n : Nat) {α : Type} [M.Likeness α] (w : Lookahead α) : Prop where
  echoes : ∀ σ : LookaheadState, σ.pending = 0 → M.Echoes n (w σ) (w σ)

variable {M : Mirror} {n : Nat} {α β : Type} [M.Likeness α] [M.Likeness β] [M.Plain α]
  {w v : Lookahead α} {f : α → Lookahead β}

namespace Walks

instance (a : α) : M.Walks n (pure a : Lookahead α) where
  echoes σ := inferInstanceAs (M.Echoes n (pure (a, σ)) (pure (a, σ)))

/-- Lookaheads that walk alike may follow each other. -/
theorem seq (hw : M.Walks n w) (hf : ∀ a, M.Walks n (f a)) : M.Walks n (w >>= f) where
  echoes σ := by
    rw [Lookahead.bind_eq]
    exact Echoes.seqPlain (hw.echoes σ) fun r => (hf r.1).echoes r.2

instance [hw : M.Walks n w] [hf : ∀ a, M.Walks n (f a)] : M.Walks n (w >>= f) := hw.seq hf

omit [M.Plain α] in
instance {c : Prop} [Decidable c] [M.Walks n w] [M.Walks n v] :
    M.Walks n (if c then w else v) := by
  split <;> infer_instance

instance : M.Walks n (get : Lookahead LookaheadState) where
  echoes σ := inferInstanceAs (M.Echoes n (pure (σ, σ)) (pure (σ, σ)))

instance (σ' : LookaheadState) : M.Walks n (set σ' : Lookahead PUnit) where
  echoes _ := inferInstanceAs (M.Echoes n (pure (PUnit.unit, σ')) (pure (PUnit.unit, σ')))

instance (g : LookaheadState → LookaheadState) : M.Walks n (modify g : Lookahead PUnit) where
  echoes σ := inferInstanceAs (M.Echoes n (pure (PUnit.unit, g σ)) (pure (PUnit.unit, g σ)))

instance (p : Parser α) [M.Echoes n p p] : M.Walks n (liftM p : Lookahead α) where
  echoes σ := inferInstanceAs (M.Echoes n (p >>= fun a => pure (a, σ)) (p >>= fun a => pure (a, σ)))

/-- What comes after a question, if "yes" means that a token comes next. -/
instance {w : Lookahead Bool} {v u : Lookahead β} [hspots : Spots w] [hw : M.Walks n w]
    [hv : M.WalksFlat n v] [hu : M.Walks n u] :
    M.Walks n (w >>= fun found => if found = true then v else u) where
  echoes σ := by
    rw [Lookahead.bind_eq]
    constructor
    intro s t hst hn
    refine Echoes.ends_bind ((hw.echoes σ).ends hst hn) ?_
    rintro ⟨found, τ⟩ r s' t' hrun - hlike hst' hn'
    obtain rfl : (found, τ) = r := Plain.like_iff.mp hlike
    cases found with
    | false => exact (hu.echoes τ).ends hst' hn'
    | true =>
      obtain ⟨-, -, -, hpending⟩ := hspots.spots (M.within hst.cursor).1.settled hrun
      exact (hv.echoes τ hpending).ends hst' hn'

instance {step : α → Lookahead (Step α β)} [hstep : ∀ k a, M.Walks k (step a)]
    [hpaces : ∀ k a, Paces k Step.IsAgain (step a)] (a : α) :
    M.Walks n (Lookahead.loop step a) where
  echoes σ := by
    have hstepped (k : Nat) (r : M.Pair (α × LookaheadState)) :
        M.Echoes k (Lookahead.stepped step r.left) (Lookahead.stepped step r.right) := by
      rw [Plain.like_iff.mp r.like]
      refine Echoes.bind ((hstep k r.right.1).echoes r.right.2) fun {x y} _ _ hlike hst hn => ?_
      obtain ⟨outcome, τ⟩ := x
      obtain ⟨outcome', τ'⟩ := y
      obtain ⟨houtcome, hstate⟩ := hlike
      refine .ok ?_ hst hn
      cases outcome <;> cases outcome'
      · exact ⟨houtcome, hstate⟩
      · exact houtcome
      · exact houtcome
      · exact ⟨houtcome, hstate⟩
    rw [Lookahead.loop_eq]
    infer_instance

end Walks

namespace WalksFlat

omit [M.Plain α] in
instance (priority := low) [h : M.Walks n w] : M.WalksFlat n w := ⟨fun σ _ => h.echoes σ⟩

instance [hw : M.WalksFlat n w] [hf : ∀ a, M.Walks n (f a)] : M.WalksFlat n (w >>= f) where
  echoes σ hpending := by
    rw [Lookahead.bind_eq]
    exact Echoes.seqPlain (hw.echoes σ hpending) fun r => (hf r.1).echoes r.2

instance {f : Nat → Lookahead β} [hf : ∀ k, M.WalksFlat k (f k)] :
    M.WalksFlat n ((liftM Parser.position : Lookahead Nat) >>= f) where
  echoes σ hpending := by
    rw [Lookahead.position_bind_eq]
    have := fun k => (hf k).echoes σ hpending
    infer_instance

end WalksFlat

end Mirror

namespace Lookahead

open Mirror

variable {M : Mirror} {n : Nat}

/-! ### Single tokens -/

instance (k : Nat) : M.Walks n (kindAt k) := by unfold kindAt; infer_instance

instance : M.Walks n currentKind := by unfold currentKind; infer_instance

instance (kind : TokenKind) : M.Walks n (check kind) := by unfold check; infer_instance

instance (first second : TokenKind) : M.Walks n (checkPair first second) := by
  unfold checkPair
  infer_instance

instance : M.Walks n bump where
  echoes σ := by
    rw [bump_eq]
    infer_instance

instance (kind : TokenKind) : M.Walks n (eat kind) := by unfold eat; infer_instance

instance (remaining : Nat) : M.Walks n (openShift remaining) := by
  unfold openShift
  infer_instance

instance : M.Walks n bumpClosingAngle := by
  unfold bumpClosingAngle
  refine Walks.seq inferInstance fun kind => ?_
  dsimp only
  split <;> infer_instance

instance : M.Walks n exhausted := by unfold exhausted; infer_instance

instance : M.Walks n (rewind n) := by unfold rewind; infer_instance

instance : M.Walks n skipDimensions := by unfold skipDimensions; infer_instance

/-! ### Names, groups and annotations -/

instance : M.WalksFlat n skipBalanced where
  echoes σ hσ := by
    have hstep (k : Nat) (r : M.Pair (Nat × LookaheadState)) :
        M.Echoes k (balancedStep r.left) (balancedStep r.right) := by
      rw [Plain.like_iff.mp r.like]
      unfold balancedStep
      infer_instance
    rw [skipBalanced_eq hσ]
    infer_instance

instance : M.Walks n skipQualifiedName := by unfold skipQualifiedName; infer_instance

instance : M.Walks n atAnnotation := by unfold atAnnotation; infer_instance

instance : M.Walks n skipAnnotation := by unfold skipAnnotation; infer_instance

instance : M.Walks n skipAnnotations := by unfold skipAnnotations; infer_instance

instance : M.Walks n skipModifiers := by unfold skipModifiers; infer_instance

/-! ### Types -/

section Types

variable (w : Lookahead Bool) [∀ k, M.Walks k w] [Walk .free w]

instance : M.Walks n (skipTypeArgument w) := by
  unfold skipTypeArgument
  refine Walks.seq inferInstance fun found => ?_
  split
  · refine Walks.seq inferInstance fun kind => ?_
    split <;> infer_instance
  · infer_instance

instance : M.Walks n (skipTypeArguments w) := by unfold skipTypeArguments; infer_instance

instance : M.Walks n (skipOptionalArguments w) := by unfold skipOptionalArguments; infer_instance

instance : M.Walks n atSegment := by unfold atSegment; infer_instance

instance : M.Walks n (skipClassType w) := by unfold skipClassType; infer_instance

instance : M.Walks n (skipElementType w) := by
  unfold skipElementType
  refine Walks.seq inferInstance fun kind => ?_
  split <;> infer_instance

end Types

/-- A type is passed alike, however deep its arguments may be nested. -/
theorem walks_skipTypeWithin (k : Nat) : M.Walks n (skipTypeWithin k) := by
  induction k generalizing n with
  | zero =>
    rw [skipTypeWithin]
    infer_instance
  | succ k ih =>
    have hwalk : Walk .free (skipTypeWithin k) := walk_skipTypeWithin k
    rw [skipTypeWithin]
    infer_instance

instance : M.Walks n skipType := walks_skipTypeWithin _

/-! ### Lists -/

instance : M.Walks n skipIdentifierList := by unfold skipIdentifierList; infer_instance

instance : M.Walks n skipFormalParameters := by unfold skipFormalParameters; infer_instance

instance : M.Walks n atPrimitive := by
  unfold atPrimitive
  refine Walks.seq inferInstance fun kind => ?_
  split <;> infer_instance

instance : M.Walks n skipCastType := by unfold skipCastType; infer_instance

/-! ### What a parenthesis opens -/

instance : M.WalksFlat n beforeArrow := by unfold beforeArrow; infer_instance

instance : M.Walks n holdsNames := by
  unfold holdsNames
  refine Walks.seq inferInstance fun isEmpty => ?_
  split
  · infer_instance
  · refine Walks.seq inferInstance fun count => ?_
    split <;> infer_instance

instance : M.Walks n holdsSeveralNames := by
  unfold holdsSeveralNames
  refine Walks.seq inferInstance fun count => ?_
  split <;> infer_instance

instance : M.Walks n holdsParameters := by unfold holdsParameters; infer_instance

instance : M.Walks n isCast := by
  unfold isCast
  refine Walks.seq inferInstance fun primitive => ?_
  split <;> infer_instance

instance (w : Lookahead Bool) [M.Walks n w] : M.Walks n (inside n w) := by
  unfold inside
  infer_instance

instance : M.WalksFlat n parenKind := by unfold parenKind; infer_instance

/-- A lookahead as a whole goes back to where it started. -/
instance {α : Type} [M.Likeness α] [M.Plain α] {w : Lookahead α} [hw : ∀ k, M.WalksFlat k w] :
    M.Echoes n w.run w.run := by
  have hback (k : Nat) : M.Echoes k (andThen (·.restorePosition k) (Prod.fst <$> w {}))
      (andThen (·.restorePosition k) (Prod.fst <$> w {})) := by
    constructor
    intro s t hst hn
    have hfirst : M.Echoes k (Prod.fst <$> w {}) (Prod.fst <$> w {}) :=
      have := (hw k).echoes {} rfl
      inferInstance
    have hends := hfirst.ends hst hn
    unfold andThen
    generalize (Prod.fst <$> w {}) s = first at hends
    generalize (Prod.fst <$> w {}) t = second at hends
    cases hends with
    | ok hlike hfacing hn' =>
      exact .ok hlike (hfacing.withCursor (M.same_restore hfacing.cursor hn')) (Nat.le_refl k)
    | error hfault => exact .error hfault
  have hrun : M.Echoes n
      (Parser.position >>= fun k => andThen (·.restorePosition k) (Prod.fst <$> w {}))
      (Parser.position >>= fun k => andThen (·.restorePosition k) (Prod.fst <$> w {})) :=
    inferInstance
  exact hrun

end Lookahead

namespace Parser

open Mirror

variable {M : Mirror} {n : Nat}

/-! ### The questions of the grammar -/

/-- What is noted down about a decision makes no difference. -/
instance : M.Echoes n classifyParen classifyParen := by
  unfold classifyParen
  refine Echoes.seq inferInstance fun r => Echoes.seqPlain inferInstance fun kind => ⟨?_⟩
  intro s t hst hn
  have hends (j k : Array LogEvent) : M.Ends n
      (.ok kind, { s with cursor := { s.cursor with journal := j } })
      (.ok kind, { t with cursor := { t.cursor with journal := k } }) :=
    .ok rfl (hst.withCursor (M.same_withJournal hst.cursor j k)) hn
  rw [bind_apply, bind_apply, get_apply, get_apply]
  dsimp only
  split <;> split <;> exact hends _ _

instance : M.Echoes n atLocalVariable atLocalVariable := by
  unfold atLocalVariable
  infer_instance

instance : M.Echoes n atEnhancedFor atEnhancedFor := by
  unfold atEnhancedFor
  infer_instance

instance : M.Echoes n atPattern atPattern := by
  unfold atPattern
  infer_instance

instance : M.Echoes n typePrimary? typePrimary? := by
  unfold typePrimary?
  infer_instance

instance : M.Echoes n atYield atYield := by
  unfold atYield
  infer_instance

end Parser

end JavaSyntax
