import JavaSyntax.Proofs.Grammar.Types

/-!
# Expressions are productions

Switches, primary expressions with their selectors, and operators. Builders that are given
the position at which an expression starts are productions from that position on.
-/

set_option synthInstance.maxSize 4096

namespace JavaSyntax

open JavaSyntax.Parser

namespace Grammar

variable {m : Footing} {g : Grammar} [g.Productive]

/-! ### Switches -/

instance : Production m atNullLabel := .onAny (by unfold atNullLabel; infer_instance)

instance : Production m g.caseLabelTree := .onAny (by unfold caseLabelTree; infer_instance)

instance : Production m g.caseLabel := .onAny (by unfold caseLabel; infer_instance)

instance : Production m g.caseGuard? := .onAny (by unfold caseGuard?; infer_instance)

instance : Production m defaultLabel := .onAny (by unfold defaultLabel; infer_instance)

instance : Production m g.switchLabel := .onAny (by unfold switchLabel; infer_instance)

instance : Production m atSwitchLabel := .onAny (by unfold atSwitchLabel; infer_instance)

instance : Production m g.ruleBody := by
  apply Production.onAny
  unfold ruleBody
  refine .look inferInstance fun kind => ?_
  split <;> infer_instance

instance (n : Nat) (label : Node .switchLabel) :
    Production (.started n) (g.ruleFrom n label) := by unfold ruleFrom; infer_instance

instance : Production m g.rule := .onAny (by unfold rule; infer_instance)

instance : Production m g.labelWithColon := .onAny (by unfold labelWithColon; infer_instance)

instance : Production m atGroupStatement := .onAny (by unfold atGroupStatement; infer_instance)

instance (n : Nat) (label : Node .switchLabel) :
    Production (.started n) (g.groupFrom n label) := by unfold groupFrom; infer_instance

instance : Production m g.group := .onAny (by unfold group; infer_instance)

instance : Production m g.switchCases := .onAny (by unfold switchCases; infer_instance)

instance : Production m g.switchParts := .onAny (by unfold switchParts; infer_instance)

/-! ### Primaries -/

instance : Production m g.lambdaBody := .onAny (by unfold lambdaBody; infer_instance)

instance (n : Nat) (parameters : Tree .lambdaParameters) :
    Production (.started n) (g.lambdaFrom n parameters) := by unfold lambdaFrom; infer_instance

instance : Production m referenceName := .onAny (by unfold referenceName; infer_instance)

instance (n : Nat) (target : Tree .referenceTarget) :
    Production (.started n) (g.methodReference n target) :=
  by unfold methodReference; infer_instance

instance (n : Nat) (type : Node .type) :
    Production (.started n) (g.typePrimaryFrom n type) :=
  by unfold typePrimaryFrom; infer_instance

instance (d : NewDimensions) :
    Production m (g.newDimension d) := .onAny (by unfold newDimension; infer_instance)

instance (n : Nat) (element : Node .type) :
    Production (.started n) (g.arrayCreation n element) := by unfold arrayCreation; infer_instance

instance (n : Nat) (outer : Option (Node .expression)) (typeArguments : List (Node .type))
    (type : Node .type) :
    Production (.started n) (g.objectCreation n outer typeArguments type) :=
  by unfold objectCreation; infer_instance

instance (n : Nat) (outer : Option (Node .expression)) :
    Production (.started n) (g.creation n outer) := by unfold creation; infer_instance

instance [m.Passive] (next : TokenKind) : Production m (atTypePrimary next) := by
  unfold atTypePrimary
  infer_instance

instance (n : Nat) :
    Production (.started n) (g.namePrimary n) := by unfold namePrimary; infer_instance

instance (n : Nat) :
    Production (.started n) (g.parenthesized n) := by unfold parenthesized; infer_instance

instance (n : Nat) (keyword : Keyword) : Production (.started n) (g.keywordPrimary n keyword) := by
  unfold keywordPrimary
  split <;> infer_instance

instance : Production m g.primary := by
  unfold primary
  refine .start inferInstance fun start kind _ => ?_
  split <;> infer_instance

instance (n : Nat) (target : Node .expression) :
    Production (.started n) (classLiteral n target) := by
  unfold classLiteral
  split <;> infer_instance

instance (n : Nat) (target : Node .expression) :
    Production (.started n) (g.dotSelector n target) := by
  unfold dotSelector
  refine .bind nofun inferInstance fun kind => ?_
  split <;> infer_instance

instance (n : Nat) (target : Node .expression) :
    Production (.started n) (g.selector n target) := by
  unfold selector
  refine .bind nofun inferInstance fun kind => ?_
  split
  · infer_instance
  · infer_instance
  · infer_instance
  · split <;> infer_instance

instance (n : Nat) (target : Node .expression) :
    Production (.started n) (g.selectors n target) := by unfold selectors; infer_instance

/-! ### Operators -/

instance (n : Nat) : Production (.started n) (g.castFrom n) := by unfold castFrom; infer_instance

instance : Production m implicitParameters := .onAny (by unfold implicitParameters; infer_instance)

instance (kind : ParenKind) :
    Production m (g.lambdaParameters kind) := .onAny (by unfold lambdaParameters; infer_instance)

instance [m.Passive] (kind : TokenKind) : Production m (atNegativeLiteral kind) := by
  unfold atNegativeLiteral
  infer_instance

instance (n : Nat) : Production (.started n) (negativeLiteral n) := by
  unfold negativeLiteral
  refine .bind nofun inferInstance fun _ => .start inferInstance fun literalStart literal hn => ?_
  exact .bind nofun inferInstance fun operand => .node _ hn

instance (n : Nat) :
    Production (.started n) (g.postfixExpression n) := by unfold postfixExpression; infer_instance

instance (n : Nat) :
    Production (.started n) (g.parenExpression n) := by unfold parenExpression; infer_instance

instance : Production m g.unaryBody := by
  unfold unaryBody
  refine .start inferInstance fun start kind _ => .bind nofun inferInstance fun isNegative => ?_
  split
  · infer_instance
  · split <;> infer_instance

instance [m.Passive] : Production m g.instanceOfTarget := by
  unfold instanceOfTarget
  infer_instance

/-- An operator and its right operand are read from where the left operand starts. -/
theorem production_binaryStep {operand : Nat → Parser (Node .expression)}
    (hoperand : ∀ least, Production .looking (operand least)) (least n : Nat)
    (left : Node .expression) :
    Production (.started n) (g.binaryStep operand least n left) := by
  have hright (least : Nat) : Production (.started n) (operand least) := (hoperand least).onAny
  unfold binaryStep
  refine .bind nofun inferInstance fun kind => ?_
  split
  · infer_instance
  · split <;> infer_instance

/-- Operations are productions at every level of precedence. -/
theorem looking_binary (levels least : Nat) : Production .looking (g.binary levels least) := by
  induction levels generalizing least with
  | zero =>
    rw [binary]
    infer_instance
  | succ levels ih =>
    rw [binary]
    refine .start inferInstance fun start first _ => ?_
    have hstep (left : Node .expression) := production_binaryStep (g := g) ih least start left
    infer_instance

instance : Production m g.anyBinary := (looking_binary 10 1).onAny

instance : Production m g.conditionalBody := .onAny (by unfold conditionalBody; infer_instance)

instance : Production m g.expressionBody := by
  unfold expressionBody
  refine .start inferInstance fun start target _ => .bind nofun inferInstance fun kind => ?_
  split <;> infer_instance

end Grammar

end JavaSyntax
