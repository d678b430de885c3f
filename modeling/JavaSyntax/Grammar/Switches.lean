import JavaSyntax.Grammar.Types

/-!
# Switches

The body of a switch, which the statement and the expression share. Its first label
decides whether it holds rules with arrows or groups with colons.
-/

namespace JavaSyntax.Grammar

open JavaSyntax.Parser

/-! ### Labels -/

/-- Whether a kind can stand after the `null` of a label. -/
def endsCaseLabel : TokenKind → Bool
  | .comma | .arrow | .colon => true
  | _ => false

/-- Whether the label `null` comes next and no expression that starts with it. -/
def atNullLabel : Parser Bool := do
  if ← check .nullLiteral then return endsCaseLabel (← peekKind 1) else return false

/-- Reads one label of a case. -/
def caseLabelTree (g : Grammar) : Parser (Tree .caseLabel) := do
  if ← atNullLabel then
    let _ ← advance
    return .caseNull
  if ← eatKeyword .default then return .caseDefault
  if ← atPattern then return .casePattern (← g.pattern)
  return .caseConstant (← g.conditional)

def caseLabel (g : Grammar) : Parser (Node .caseLabel) := do
  let start ← position
  let tree ← g.caseLabelTree
  node start tree

/-- Reads the guard of a case, if there is one. -/
def caseGuard? (g : Grammar) : Parser (Option (Node .expression)) := do
  if ← eatWord "when" then return some (← g.expression) else return none

/-- Reads the `default` of a switch. -/
def defaultLabel : Parser (Node .switchLabel) := do
  let start ← position
  let _ ← advance
  let label ← node start .caseDefault
  node start (.switchLabel (.ofList [label]) .absent)

/-- Reads `default`, or a case with its labels and its guard. The arrow after a case
starts no lambda. -/
def switchLabel (g : Grammar) : Parser (Node .switchLabel) := do
  if ← checkKeyword .default then defaultLabel
  else
    let start ← position
    let _ ← expectKeyword .case
    withLambdas false do
      let labels ← separatedBy .comma g.caseLabel
      let guard ← g.caseGuard?
      node start (.switchLabel (.ofList labels) (.ofOption guard))

/-- Whether a label comes next. -/
def atSwitchLabel : Parser Bool := do
  if ← checkKeyword .case then return true
  if ← checkKeyword .default then
    let next ← peekKind 1
    return next == .colon || next == .arrow
  return false

/-! ### Rules -/

/-- Reads what stands after the arrow of a rule. -/
def ruleBody (g : Grammar) : Parser (Tree .ruleBody) := do
  match ← currentKind with
  | .leftBrace => return .ruleBlock (← g.block)
  | .keyword .throw => return .ruleThrow (← g.statement)
  | _ =>
    let expression ← g.expression
    let _ ← expect .semicolon
    return .ruleExpression expression

/-- Reads a rule after its label. -/
def ruleFrom (g : Grammar) (start : Nat) (label : Node .switchLabel) :
    Parser (Node .switchRule) := do
  let _ ← expect .arrow
  let body ← g.ruleBody
  node start (.switchRule label body)

def rule (g : Grammar) : Parser (Node .switchRule) := do
  let start ← position
  let label ← g.switchLabel
  g.ruleFrom start label

/-! ### Groups -/

/-- Reads a label and its colon. -/
def labelWithColon (g : Grammar) : Parser (Node .switchLabel) := do
  let label ← g.switchLabel
  let _ ← expect .colon
  return label

/-- Whether a statement of the current group comes next. -/
def atGroupStatement : Parser Bool := do
  if ← atSwitchLabel then return false
  return !(← check .rightBrace)

/-- Reads a group after its first label and the colon of that label. -/
def groupFrom (g : Grammar) (start : Nat) (label : Node .switchLabel) :
    Parser (Node .switchGroup) := do
  let labels ← manyWhile atSwitchLabel g.labelWithColon
  let statements ← manyWhile atGroupStatement g.statement
  node start (.switchGroup (.ofList (label :: labels)) (.ofList statements))

def group (g : Grammar) : Parser (Node .switchGroup) := do
  let start ← position
  let label ← g.labelWithColon
  g.groupFrom start label

/-! ### The switch -/

/-- Reads what stands between the braces of a switch. -/
def switchCases (g : Grammar) : Parser (Tree .switchBody) := do
  if ← check .rightBrace then return .groups .nil
  let start ← position
  let label ← g.switchLabel
  if ← check .arrow then
    let first ← g.ruleFrom start label
    let others ← manyUntil .rightBrace g.rule
    return .rules (.ofList (first :: others))
  else
    let _ ← expect .colon
    let first ← g.groupFrom start label
    let others ← manyUntil .rightBrace g.group
    return .groups (.ofList (first :: others))

/-- Reads a switch: its selector and its body. -/
def switchParts (g : Grammar) : Parser (Node .expression × Tree .switchBody) := do
  let _ ← expectKeyword .switch
  let _ ← expect .leftParen
  let selector ← withLambdas true g.expression
  let _ ← expect .rightParen
  let _ ← expect .leftBrace
  let body ← g.switchBody
  let _ ← expect .rightBrace
  return (selector, body)

end JavaSyntax.Grammar
