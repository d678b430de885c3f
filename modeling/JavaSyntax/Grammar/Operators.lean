import JavaSyntax.Grammar.Primaries

/-!
# Operators

The operators, casts and lambdas before an operand, then binary operators,
conditionals and assignments. Binary operators climb by their precedence: an
operator is taken only if it binds at least as tight as demanded, and its right
operand must bind tighter than the operator itself.
-/

namespace JavaSyntax.Grammar

open JavaSyntax.Parser

/-! ### Before an operand -/

/-- Reads a cast. -/
def castFrom (g : Grammar) (start : Nat) : Parser (Node .expression) := do
  let _ ← expect .leftParen
  let type ← g.castType
  let _ ← expect .rightParen
  let operand ← g.unary
  node start (.cast type operand)

/-- Reads the names between the parentheses of a lambda. -/
def implicitParameters : Parser (Tree .lambdaParameters) := do
  let _ ← expect .leftParen
  let names ← if ← check .rightParen then pure [] else identifierList
  let _ ← expect .rightParen
  return .implicitParameters names true

/-- Reads the parameters of a lambda in parentheses. -/
def lambdaParameters (g : Grammar) (kind : ParenKind) : Parser (Tree .lambdaParameters) := do
  if kind = .explicitLambda then return .explicitParameters (.ofList (← g.formalParameters))
  else implicitParameters

/-- Whether a minus sign comes next with an integer literal after it. -/
def atNegativeLiteral (kind : TokenKind) : Parser Bool := do
  if kind = .minus then
    let next ← peekKind 1
    return next == .intLiteral || next == .longLiteral
  else return false

/-- Reads a minus sign and the integer literal after it. -/
def negativeLiteral (start : Nat) : Parser (Node .expression) := do
  let _ ← advance
  let literalStart ← position
  let literal ← literal true
  let operand ← node literalStart (.literal literal)
  node start (.unary .minus operand)

/-- Reads an expression without operators before it. -/
def postfixExpression (g : Grammar) (start : Nat) : Parser (Node .expression) := do
  let primary ← g.primary
  g.selectors start primary

/-- Reads an expression that starts with a parenthesis. -/
def parenExpression (g : Grammar) (start : Nat) : Parser (Node .expression) := do
  let kind ← classifyParen
  if kind = .cast then g.castFrom start
  else if kind.isLambda && (← get).lambdas then
    let parameters ← g.lambdaParameters kind
    g.lambdaFrom start parameters
  else g.postfixExpression start

/-- Reads an operand with the operators before it. -/
def unaryBody (g : Grammar) : Parser (Node .expression) := do
  let start ← position
  let kind ← currentKind
  if ← atNegativeLiteral kind then negativeLiteral start
  else
    match UnaryOperator.beforeOperand? kind with
    | some operator =>
      let _ ← advance
      let operand ← g.unary
      node start (.unary operator operand)
    | none => if kind = .leftParen then g.parenExpression start else g.postfixExpression start

/-! ### Between operands -/

/-- Reads what stands after `instanceof`. -/
def instanceOfTarget (g : Grammar) : Parser (Tree .instanceOfTarget) := do
  if ← atPattern then return .testPattern (← g.pattern) else return .testType (← g.type)

/-- Reads one more operator that binds at least as tight as `least`, with its right
operand, given how to read an operand that binds tighter than a precedence. -/
def binaryStep (g : Grammar) (operand : Nat → Parser (Node .expression)) (least start : Nat)
    (left : Node .expression) : Parser (Step (Node .expression) (Node .expression)) := do
  let kind ← currentKind
  if kind = .keyword .instanceof then
    if instanceOfPrecedence < least then return .done left
    let _ ← advance
    let target ← g.instanceOfTarget
    return .again (← node start (.instanceOf left target))
  match BinaryOperator.ofToken? kind with
  | none => return .done left
  | some operator =>
    if operator.precedence < least then return .done left
    let _ ← advance
    let right ← operand (operator.precedence + 1)
    return .again (← node start (.binary left operator right))

/-- Reads operands and the operators between them that bind at least as tight as
`least`, which is above the tightest operator when no level is left. -/
def binary (g : Grammar) : (levels : Nat) → (least : Nat) → Parser (Node .expression)
  | 0, _ => g.unaryBody
  | levels + 1, least => do
    let start ← position
    let first ← g.unaryBody
    loop (g.binaryStep (binary g levels) least start) first

/-- Reads operands and any binary operators between them. -/
def anyBinary (g : Grammar) : Parser (Node .expression) := g.binary 10 1

/-- Reads a conditional, or the binary expression that would be its condition. -/
def conditionalBody (g : Grammar) : Parser (Node .expression) := do
  let start ← position
  let condition ← g.anyBinary
  if ← eat .question then
    let thenValue ← g.expression
    let _ ← expect .colon
    let elseValue ← g.conditional
    node start (.conditional condition thenValue elseValue)
  else return condition

/-- Reads an expression. Assignments group to the right. -/
def expressionBody (g : Grammar) : Parser (Node .expression) := do
  let start ← position
  let target ← g.conditionalBody
  match AssignmentOperator.ofToken? (← currentKind) with
  | none => return target
  | some operator =>
    let _ ← advance
    let value ← g.expression
    node start (.assignment target operator value)

end JavaSyntax.Grammar
