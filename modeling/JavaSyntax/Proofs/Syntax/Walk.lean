import JavaSyntax.Proofs.Syntax.Production

/-!
# Lookaheads are productions

A lookahead carries a state of its own along a parse. Started from any such state it is
a production that makes no nodes, so the answers that lookaheads give are part of
what productions do.
-/

set_option synthInstance.maxSize 4096

namespace JavaSyntax

open JavaSyntax.Parser (Step)

/-- A lookahead is a production, whatever it keeps in mind at the start. -/
class Walk (m : Footing) {α : Type} (w : Lookahead α) : Prop where
  production : ∀ σ, Production m (w σ)

namespace Walk

variable {α β : Type} {m : Footing} [m.Passive] {w : Lookahead α} {f : α → Lookahead β}

instance (a : α) : Walk m (pure a : Lookahead α) where
  production σ := inferInstanceAs (Production m (pure (a, σ)))

/-- Lookaheads one after the other. -/
theorem seq (hw : Walk m w) (hf : ∀ a, Walk m (f a)) : Walk m (w >>= f) where
  production σ := .bind Footing.Passive.ne_looking (hw.production σ) fun (a, σ') =>
    (hf a).production σ'

instance [hw : Walk m w] [hf : ∀ a, Walk m (f a)] : Walk m (w >>= f) := hw.seq hf

instance {c : Prop} [Decidable c] {v : Lookahead α} [Walk m w] [Walk m v] :
    Walk m (if c then w else v) := by
  split <;> infer_instance

instance : Walk m (get : Lookahead LookaheadState) where
  production σ := inferInstanceAs (Production m (pure (σ, σ)))

instance (σ' : LookaheadState) : Walk m (set σ' : Lookahead PUnit) where
  production _ := inferInstanceAs (Production m (pure (PUnit.unit, σ')))

instance (g : LookaheadState → LookaheadState) : Walk m (modify g : Lookahead PUnit) where
  production σ := inferInstanceAs (Production m (pure (PUnit.unit, g σ)))

instance (p : Parser α) [Production m p] : Walk m (liftM p : Lookahead α) where
  production σ := inferInstanceAs (Production m (p >>= fun a => pure (a, σ)))

/-- A lookahead may remember where it stands to go back there. -/
instance {f : Nat → Lookahead α} [hf : ∀ n, Walk (.marked n) (f n)] :
    Walk m ((liftM Parser.position : Lookahead Nat) >>= f) where
  production σ := by
    have hbind : ((liftM Parser.position : Lookahead Nat) >>= f) σ =
        Parser.position >>= fun n => f n σ := by
      show ((Parser.position >>= fun n => pure (n, σ)) >>= fun (n, σ) => f n σ) = _
      rw [bind_assoc]
      simp only [pure_bind]
    rw [hbind]
    exact .mark Footing.Passive.ne_looking fun n _ => (hf n).production σ

end Walk

namespace Lookahead

variable {α β : Type} {m : Footing} [m.Passive]

/-! ### Single tokens -/

instance (n : Nat) : Walk m (kindAt n) := by
  unfold kindAt
  infer_instance

instance : Walk m currentKind := by
  unfold currentKind
  infer_instance

instance (kind : TokenKind) : Walk m (check kind) := by
  unfold check
  infer_instance

instance (first second : TokenKind) : Walk m (checkPair first second) := by
  unfold checkPair
  infer_instance

instance : Walk m bump := by
  unfold bump
  infer_instance

instance (kind : TokenKind) : Walk m (eat kind) := by
  unfold eat
  infer_instance

instance (remaining : Nat) : Walk m (openShift remaining) := by
  unfold openShift
  infer_instance

instance : Walk m bumpClosingAngle := by
  unfold bumpClosingAngle
  refine Walk.seq inferInstance fun kind => ?_
  dsimp only
  split <;> infer_instance

instance : Walk m exhausted := by
  unfold exhausted
  infer_instance

instance (n : Nat) : Walk (.marked n) (rewind n) := by
  unfold rewind
  infer_instance

/-! ### Repetition -/

/-- A bounded loop of a lookahead is a production if its steps are. -/
theorem walk_loopFor {step : α → Lookahead (Step α β)} (h : ∀ a, Walk m (step a)) (n : Nat)
    (a : α) : Walk m (loopFor step n a) := by
  induction n generalizing a with
  | zero =>
    rw [loopFor]
    exact inferInstanceAs (Walk m (liftM (Parser.unexpected "end of input" : Parser β)))
  | succ n ih =>
    refine (h a).seq fun outcome => ?_
    cases outcome with
    | again next => exact ih next
    | done result => infer_instance

/-- A loop of a lookahead is a production if its steps are. -/
theorem walk_loop {step : α → Lookahead (Step α β)} (h : ∀ a, Walk m (step a)) (a : α) :
    Walk m (loop step a) where
  production σ := by
    have hloop : loop step a σ = get >>= fun s => loopFor step (Parser.loopBound s) a σ := by
      show ((get >>= fun s => pure (s, σ)) >>= fun (s, σ) =>
        loopFor step (Parser.loopBound s) a σ) = _
      rw [bind_assoc]
      simp only [pure_bind]
    rw [hloop]
    exact .bound (f := fun n => loopFor step n a σ) fun n => (walk_loopFor h n a).production σ

instance {step : α → Lookahead (Step α β)} [h : ∀ a, Walk m (step a)] (a : α) :
    Walk m (loop step a) := walk_loop h a

instance : Walk m skipDimensions := by
  unfold skipDimensions
  infer_instance

/-! ### Names, groups and annotations -/

instance : Walk m skipBalanced := by
  unfold skipBalanced
  refine walk_loop (fun depth => Walk.seq inferInstance fun isExhausted => ?_) 0
  split
  · infer_instance
  · refine Walk.seq inferInstance fun kind => ?_
    split <;> infer_instance

instance : Walk m skipQualifiedName := by
  unfold skipQualifiedName
  infer_instance

instance : Walk m atAnnotation := by
  unfold atAnnotation
  infer_instance

instance : Walk m skipAnnotation := by
  unfold skipAnnotation
  infer_instance

instance : Walk m skipAnnotations := by
  unfold skipAnnotations
  infer_instance

instance : Walk m skipModifiers := by
  unfold skipModifiers
  infer_instance

/-! ### Types -/

instance (w : Lookahead Bool) [Walk m w] : Walk m (skipTypeArgument w) := by
  unfold skipTypeArgument
  refine Walk.seq inferInstance fun found => ?_
  split
  · refine Walk.seq inferInstance fun kind => ?_
    split <;> infer_instance
  · infer_instance

instance (w : Lookahead Bool) [Walk m w] : Walk m (skipTypeArguments w) := by
  unfold skipTypeArguments
  infer_instance

instance (w : Lookahead Bool) [Walk m w] : Walk m (skipOptionalArguments w) := by
  unfold skipOptionalArguments
  infer_instance

instance : Walk m atSegment := by
  unfold atSegment
  infer_instance

instance (w : Lookahead Bool) [Walk m w] : Walk m (skipClassType w) := by
  unfold skipClassType
  infer_instance

instance (w : Lookahead Bool) [Walk m w] : Walk m (skipElementType w) := by
  unfold skipElementType
  refine Walk.seq inferInstance fun kind => ?_
  split <;> infer_instance

/-- Passing a type of any depth is a production. -/
theorem walk_skipTypeWithin (n : Nat) : Walk m (skipTypeWithin n) := by
  induction n with
  | zero =>
    rw [skipTypeWithin]
    infer_instance
  | succ n ih =>
    rw [skipTypeWithin]
    infer_instance

instance : Walk m skipType := walk_skipTypeWithin _

/-! ### Lists -/

instance : Walk m skipIdentifierList := by
  unfold skipIdentifierList
  infer_instance

instance : Walk m skipFormalParameters := by
  unfold skipFormalParameters
  infer_instance

instance : Walk m atPrimitive := by
  unfold atPrimitive
  refine Walk.seq inferInstance fun kind => ?_
  split <;> infer_instance

instance : Walk m skipCastType := by
  unfold skipCastType
  infer_instance

/-! ### What a parenthesis opens -/

instance : Walk m beforeArrow := by
  unfold beforeArrow
  infer_instance

instance : Walk m holdsNames := by
  unfold holdsNames
  refine Walk.seq inferInstance fun isEmpty => ?_
  split
  · infer_instance
  · refine Walk.seq inferInstance fun count => ?_
    split <;> infer_instance

instance : Walk m holdsSeveralNames := by
  unfold holdsSeveralNames
  refine Walk.seq inferInstance fun count => ?_
  split <;> infer_instance

instance : Walk m holdsParameters := by
  unfold holdsParameters
  infer_instance

instance : Walk m isCast := by
  unfold isCast
  refine Walk.seq inferInstance fun primitive => ?_
  split <;> infer_instance

instance (n : Nat) (w : Lookahead Bool) [Walk (.marked n) w] : Walk (.marked n) (inside n w) := by
  unfold inside
  infer_instance

instance : Walk m parenKind := by
  unfold parenKind
  infer_instance

/-- A lookahead as a whole goes back to where it started. -/
instance {w : Lookahead α} [h : ∀ n, Walk (.marked n) w] : Production m w.run := by
  refine .mark Footing.Passive.ne_looking fun n _ => .goBack ?_
  have hw := (h n).production {}
  exact inferInstanceAs (Production (.marked n) (Prod.fst <$> w {}))

end Lookahead

namespace Parser

variable {m : Footing}

/-! ### The questions of the grammar -/

instance : Production m classifyParen := by
  apply Production.onAny
  unfold classifyParen
  refine .look inferInstance fun token => .bind nofun inferInstance fun kind => ?_
  exact .observe (g := fun s => s.preferences.logParenClassification)
    (f := fun isLogged => if isLogged = true then note (parenEvent kind token.offset) >>= fun _ =>
      pure kind else pure kind) (fun s t h => by rw [h.preferences_eq]) inferInstance

instance [m.Passive] : Production m atLocalVariable := by
  unfold atLocalVariable
  infer_instance

instance [m.Passive] : Production m atEnhancedFor := by
  unfold atEnhancedFor
  infer_instance

instance [m.Passive] : Production m atPattern := by
  unfold atPattern
  infer_instance

instance [m.Passive] : Production m typePrimary? := by
  unfold typePrimary?
  infer_instance

instance : Production m atYield := by
  apply Production.onAny
  unfold atYield
  infer_instance

end Parser

end JavaSyntax
