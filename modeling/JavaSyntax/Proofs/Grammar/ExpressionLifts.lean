import JavaSyntax.Proofs.Grammar.TypeLifts

/-!
# Expressions are lifted

Switches, primary expressions with their selectors, and operators.
-/

set_option synthInstance.maxSize 16384

namespace JavaSyntax.Grammar

open JavaSyntax.Parser

variable {n : Nat} {g h : Grammar} [hgh : g.Lifting h]

/-! ### Switches -/

instance : Lifts n atNullLabel atNullLabel := by unfold atNullLabel; infer_instance

instance : Lifts n g.caseLabelTree h.caseLabelTree := by unfold caseLabelTree; infer_instance

instance : Lifts n g.caseLabel h.caseLabel := by unfold caseLabel; infer_instance

instance : Lifts n g.caseGuard? h.caseGuard? := by unfold caseGuard?; infer_instance

instance : Lifts n defaultLabel defaultLabel := by unfold defaultLabel; infer_instance

instance : Lifts n g.switchLabel h.switchLabel := by unfold switchLabel; infer_instance

instance : Lifts n atSwitchLabel atSwitchLabel := by unfold atSwitchLabel; infer_instance

instance : Lifts n g.ruleBody h.ruleBody := by
  unfold ruleBody
  refine Lifts.seq inferInstance fun kind => ?_
  split <;> infer_instance

instance (start : Nat) (a : Node .switchLabel) :
    Lifts n (g.ruleFrom start a) (h.ruleFrom start a) := by
  unfold ruleFrom
  infer_instance

instance : Lifts n g.rule h.rule := by unfold rule; infer_instance

instance : Lifts n g.labelWithColon h.labelWithColon := by unfold labelWithColon; infer_instance

instance : Lifts n atGroupStatement atGroupStatement := by unfold atGroupStatement; infer_instance

instance (start : Nat) (a : Node .switchLabel) :
    Lifts n (g.groupFrom start a) (h.groupFrom start a) := by
  unfold groupFrom
  infer_instance

instance : Lifts n g.group h.group := by unfold group; infer_instance

instance : Lifts n g.switchCases h.switchCases := by unfold switchCases; infer_instance

instance : Lifts n g.switchParts h.switchParts := by unfold switchParts; infer_instance

/-! ### Lambdas and references -/

instance : Lifts n g.lambdaBody h.lambdaBody := by unfold lambdaBody; infer_instance

instance (start : Nat) (a : Tree .lambdaParameters) :
    Lifts n (g.lambdaFrom start a) (h.lambdaFrom start a) := by
  unfold lambdaFrom
  infer_instance

instance : Lifts n referenceName referenceName := by unfold referenceName; infer_instance

instance (start : Nat) (a : Tree .referenceTarget) :
    Lifts n (g.methodReference start a) (h.methodReference start a) := by
  unfold methodReference
  infer_instance

instance (start : Nat) (a : Node .type) :
    Lifts n (g.typePrimaryFrom start a) (h.typePrimaryFrom start a) := by
  unfold typePrimaryFrom
  infer_instance

/-! ### Creations -/

instance (d : NewDimensions) : Lifts n (g.newDimension d) (h.newDimension d) := by
  unfold newDimension
  infer_instance

instance (start : Nat) (a : Node .type) :
    Lifts n (g.arrayCreation start a) (h.arrayCreation start a) := by
  unfold arrayCreation
  infer_instance

instance (start : Nat) (a : Option (Node .expression)) (as : List (Node .type)) (t : Node .type) :
    Lifts n (g.objectCreation start a as t) (h.objectCreation start a as t) := by
  unfold objectCreation
  infer_instance

instance (start : Nat) (a : Option (Node .expression)) :
    Lifts n (g.creation start a) (h.creation start a) := by
  unfold creation
  infer_instance

/-! ### Names and other beginnings -/

instance (next : TokenKind) : Lifts n (atTypePrimary next) (atTypePrimary next) := by
  unfold atTypePrimary
  infer_instance

instance (start : Nat) : Lifts n (g.namePrimary start) (h.namePrimary start) := by
  unfold namePrimary
  infer_instance

instance (start : Nat) : Lifts n (g.parenthesized start) (h.parenthesized start) := by
  unfold parenthesized
  infer_instance

instance (start : Nat) (keyword : Keyword) :
    Lifts n (g.keywordPrimary start keyword) (h.keywordPrimary start keyword) := by
  unfold keywordPrimary
  split <;> infer_instance

instance : Lifts n g.primary h.primary := by
  unfold primary
  refine Lifts.marking fun start => Lifts.seq inferInstance fun kind => ?_
  split <;> infer_instance

/-! ### Selectors -/

instance (start : Nat) (a : Node .expression) :
    Lifts n (classLiteral start a) (classLiteral start a) := by
  unfold classLiteral
  split <;> infer_instance

instance (start : Nat) (a : Node .expression) :
    Lifts n (g.dotSelector start a) (h.dotSelector start a) := by
  unfold dotSelector
  refine Lifts.seq inferInstance fun kind => ?_
  split <;> infer_instance

instance (start : Nat) (a : Node .expression) :
    Lifts n (g.selector start a) (h.selector start a) := by
  unfold selector
  refine Lifts.seq inferInstance fun kind => ?_
  split
  · infer_instance
  · infer_instance
  · infer_instance
  · split <;> infer_instance

instance (start : Nat) (a : Node .expression) :
    Lifts n (g.selectors start a) (h.selectors start a) := by
  unfold selectors
  infer_instance

/-! ### Operators -/

instance (start : Nat) : Lifts n (g.castFrom start) (h.castFrom start) := by
  unfold castFrom
  infer_instance

instance : Lifts n implicitParameters implicitParameters := by
  unfold implicitParameters
  infer_instance

instance (kind : ParenKind) : Lifts n (g.lambdaParameters kind) (h.lambdaParameters kind) := by
  unfold lambdaParameters
  infer_instance

instance (kind : TokenKind) : Lifts n (atNegativeLiteral kind) (atNegativeLiteral kind) := by
  unfold atNegativeLiteral
  infer_instance

instance (start : Nat) : Lifts n (negativeLiteral start) (negativeLiteral start) := by
  unfold negativeLiteral
  infer_instance

instance (start : Nat) : Lifts n (g.postfixExpression start) (h.postfixExpression start) := by
  unfold postfixExpression
  infer_instance

instance (start : Nat) : Lifts n (g.parenExpression start) (h.parenExpression start) := by
  unfold parenExpression
  infer_instance

instance : Lifts n g.unaryBody h.unaryBody := by
  unfold unaryBody
  refine Lifts.marking fun start => Lifts.seq inferInstance fun kind =>
    Lifts.seq inferInstance fun found => ?_
  split
  · infer_instance
  · split <;> infer_instance

instance : Lifts n g.instanceOfTarget h.instanceOfTarget := by
  unfold instanceOfTarget
  infer_instance

/-- An operator and its right operand are lifted if all operands are. -/
theorem lifts_binaryStep {operand operand' : Nat → Parser (Node .expression)}
    (hoperand : ∀ least, Lifts n (operand least) (operand' least)) (least start : Nat)
    (a : Node .expression) :
    Lifts n (g.binaryStep operand least start a) (h.binaryStep operand' least start a) := by
  unfold binaryStep
  refine Lifts.seq inferInstance fun kind => ?_
  split
  · infer_instance
  · split <;> infer_instance

/-- Operations are lifted at every level of precedence. -/
theorem lifts_binary (levels least n : Nat) :
    Lifts n (g.binary levels least) (h.binary levels least) := by
  induction levels generalizing least n with
  | zero =>
    rw [binary, binary]
    infer_instance
  | succ levels ih =>
    have hstep (start k : Nat) (a : Node .expression) :
        Lifts k (g.binaryStep (g.binary levels) least start a)
          (h.binaryStep (h.binary levels) least start a) :=
      lifts_binaryStep (fun least => ih least k) least start a
    rw [binary, binary]
    infer_instance

instance : Lifts n g.anyBinary h.anyBinary := lifts_binary 10 1 n

instance : Lifts n g.conditionalBody h.conditionalBody := by unfold conditionalBody; infer_instance

instance : Lifts n g.expressionBody h.expressionBody := by
  unfold expressionBody
  refine Lifts.marking fun start => Lifts.seq inferInstance fun target =>
    Lifts.seq inferInstance fun kind => ?_
  split <;> infer_instance

end JavaSyntax.Grammar
