import JavaSyntax.Grammar.Types

/-!
# Variables, parameters and arguments

What introduces a variable and what gives it a value: declarators, initializers,
formal parameters, and the arguments of a call.
-/

namespace JavaSyntax.Grammar

open JavaSyntax.Parser

/-! ### Values -/

/-- Reads the arguments of a call. -/
def arguments (g : Grammar) : Parser (List (Node .expression)) := do
  let _ ← expect .leftParen
  withLambdas true do
    let arguments ← if ← check .rightParen then pure [] else separatedBy .comma g.expression
    let _ ← expect .rightParen
    return arguments

/-- Reads what stands after the `=` of a variable. -/
def variableInitializer (g : Grammar) : Parser (Node .expression) := do
  if ← check .leftBrace then g.arrayInitializer else g.expression

/-- Reads the braces of an array and its elements. -/
def arrayInitializerBody (g : Grammar) : Parser (Node .expression) := do
  let start ← position
  let _ ← expect .leftBrace
  let elements ← withLambdas true (trailingCommas .rightBrace g.variableInitializer)
  let _ ← expect .rightBrace
  node start (.arrayInitializer (.ofList elements))

/-! ### Variables -/

/-- Reads the name of a variable with its dimensions and its first value. -/
def variableDeclarator (g : Grammar) : Parser (Node .variableDeclarator) := do
  let start ← position
  let name ← expectIdentifier
  let dimensions ← emptyDimensions
  let initializer ← after? .assign g.variableInitializer
  node start (.variableDeclarator name dimensions (.ofOption initializer))

/-- Reads variables with commas between them. -/
def variableDeclarators (g : Grammar) : Parser (List (Node .variableDeclarator)) :=
  separatedBy .comma g.variableDeclarator

/-- Reads the type of local variables and the variables, after their modifiers. -/
def localVariable (g : Grammar) (modifiers : List (Node .modifier)) :
    Parser (Tree .localVariable) := do
  let type ← g.type
  let declarators ← g.variableDeclarators
  return .localVariables (.ofList modifiers) type (.ofList declarators)

/-! ### Parameters -/

/-- Whether `this` comes next in place of a parameter's name, alone or after the name
of a class. -/
def atReceiver : Parser Bool := do
  if ← checkKeyword .this then return true
  if ← checkPair .identifier .dot then return (← peekKind 2) == .keyword .this
  return false

/-- Reads the `this` of a receiver parameter. -/
def receiverName : Parser String := do
  let qualifier ← at? .identifier do
    let name ← expectIdentifier
    let _ ← expect .dot
    return name ++ "."
  let _ ← expectKeyword .this
  return qualifier.getD "" ++ "this"

/-- Reads a parameter, which may be the receiver only if it is the first. -/
def parameter (g : Grammar) (isFirst : Bool) : Parser (Node .parameter) := do
  let start ← position
  let modifiers ← g.modifiers
  let type ← g.type
  let varargs ← eat .ellipsis
  if !varargs then
    if ← atReceiver then
      if !isFirst then throw (.broken .receiverFirst (← peek 0))
      let name ← receiverName
      return ← node start (.parameter (.ofList modifiers) type false name 0 true)
  let name ← expectIdentifier
  let dimensions ← emptyDimensions
  node start (.parameter (.ofList modifiers) type varargs name dimensions false)

/-- Reads the parameters between the parentheses. -/
def parameterList (g : Grammar) : Parser (List (Node .parameter)) := do
  if ← check .rightParen then return []
  let first ← g.parameter true
  let others ← manyWhile (eat .comma) (g.parameter false)
  return first :: others

/-- Reads the parentheses and the parameters of a method. -/
def formalParameters (g : Grammar) : Parser (List (Node .parameter)) := do
  let _ ← expect .leftParen
  let parameters ← g.parameterList
  let _ ← expect .rightParen
  return parameters

end JavaSyntax.Grammar
