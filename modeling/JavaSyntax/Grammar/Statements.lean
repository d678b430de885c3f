import JavaSyntax.Grammar.Operators

/-!
# Statements

Blocks and the statements in them. An `else if` does not nest: a chain of them is
read in one loop and put together afterwards, so its length is not limited by the
depth of nesting.
-/

namespace JavaSyntax.Grammar

open JavaSyntax.Parser

/-! ### Parts of statements -/

/-- Reads a block. -/
def blockBody (g : Grammar) : Parser (Node .block) := do
  let start ← position
  let _ ← expect .leftBrace
  let statements ← manyUntil .rightBrace g.statement
  let _ ← expect .rightBrace
  node start (.block (.ofList statements))

/-- Reads an expression in parentheses that belong to a statement. -/
def condition (g : Grammar) : Parser (Node .expression) := do
  let _ ← expect .leftParen
  let condition ← g.expression
  let _ ← expect .rightParen
  return condition

/-- Reads an expression and the semicolon after it. -/
def expressionEnd (g : Grammar) : Parser (Node .expression) := do
  let expression ← g.expression
  let _ ← expect .semicolon
  return expression

/-- Reads the label of a jump, if it has one, and the semicolon. -/
def jumpLabel : Parser (Option String) := do
  let label ← at? .identifier expectIdentifier
  let _ ← expect .semicolon
  return label

/-- Whether `final` or an annotation comes next, or a type and a name. -/
def atVariable : Parser Bool := do
  match ← currentKind with
  | .keyword .final | .at => return true
  | _ => atLocalVariable

/-! ### Conditionals -/

/-- The parts of one `if`: where it starts, its condition and its first branch. -/
structure IfArm where
  start : Nat
  condition : Node .expression
  thenBranch : Node .statement

/-- Reads an `if` without its `else`. -/
def ifArm (g : Grammar) : Parser IfArm := do
  let start ← position
  let _ ← expectKeyword .if
  let condition ← g.condition
  let thenBranch ← g.statement
  return ⟨start, condition, thenBranch⟩

/-- The statement of an arm with its `else` branch. -/
def IfArm.tree (arm : IfArm) (elseBranch : Option (Node .statement)) : Tree .statement :=
  .ifStatement arm.condition arm.thenBranch (.ofOption elseBranch)

/-- Reads one more `else`. Arms are given last first. -/
def elseStep (g : Grammar) (arms : List IfArm) :
    Parser (Step (List IfArm) (List IfArm × Option (Node .statement))) := do
  if ← eatKeyword .else then
    if ← checkKeyword .if then return .again ((← g.ifArm) :: arms)
    else return .done (arms, some (← g.statement))
  else return .done (arms, none)

/-- Puts arms together, given last first, each as the `else` branch of the one
before it. -/
def nestArms (elseBranch : Option (Node .statement)) :
    List IfArm → Parser (Option (Node .statement))
  | [] => return elseBranch
  | arm :: arms => do
    let nested ← node arm.start (arm.tree elseBranch)
    nestArms (some nested) arms

/-- Reads an `if` with everything that hangs on it. -/
def ifStatement (g : Grammar) : Parser (Tree .statement) := do
  let first ← g.ifArm
  let (arms, last) ← loop g.elseStep []
  return first.tree (← nestArms last arms)

/-! ### Loops -/

/-- Reads the head of a `for` over elements after its parenthesis, and its body. -/
def forEachFrom (g : Grammar) : Parser (Tree .statement) := do
  let modifiers ← g.modifiers
  let type ← g.type
  let name ← expectIdentifier
  let _ ← expect .colon
  let iterable ← g.expression
  let _ ← expect .rightParen
  let body ← g.statement
  return .forEachStatement (.ofList modifiers) type name iterable body

/-- Reads what a `for` begins with. -/
def forInit (g : Grammar) : Parser (Option (Tree .forInit)) := do
  if ← check .semicolon then return none
  if ← atVariable then
    let modifiers ← g.modifiers
    return some (.forDeclaration (← g.localVariable modifiers))
  return some (.forExpressions (.ofList (← separatedBy .comma g.expression)))

/-- Reads an expression unless a token of a kind comes next. -/
def expressionUnless (g : Grammar) (kind : TokenKind) : Parser (Option (Node .expression)) := do
  if ← check kind then return none else return some (← g.expression)

/-- Reads the head of a plain `for` after its parenthesis, and its body. -/
def forFrom (g : Grammar) : Parser (Tree .statement) := do
  let init ← g.forInit
  let _ ← expect .semicolon
  let condition ← g.expressionUnless .semicolon
  let _ ← expect .semicolon
  let update ← if ← check .rightParen then pure [] else separatedBy .comma g.expression
  let _ ← expect .rightParen
  let body ← g.statement
  return .forStatement (.ofOption init) (.ofOption condition) (.ofList update) body

def forStatement (g : Grammar) : Parser (Tree .statement) := do
  let _ ← expectKeyword .for
  let _ ← expect .leftParen
  if ← atEnhancedFor then g.forEachFrom else g.forFrom

def whileStatement (g : Grammar) : Parser (Tree .statement) := do
  let _ ← advance
  let condition ← g.condition
  let body ← g.statement
  return .whileStatement condition body

def doStatement (g : Grammar) : Parser (Tree .statement) := do
  let _ ← advance
  let body ← g.statement
  let _ ← expectKeyword .while
  let condition ← g.condition
  let _ ← expect .semicolon
  return .doStatement body condition

/-! ### Resources and exceptions -/

/-- Reads a resource: a variable with its value, or an expression. -/
def resource (g : Grammar) : Parser (Node .resource) := do
  let start ← position
  if ← atVariable then
    let modifiers ← g.modifiers
    let type ← g.type
    let name ← expectIdentifier
    let _ ← expect .assign
    let initializer ← g.expression
    node start (.resourceDeclaration (.ofList modifiers) type name initializer)
  else
    let expression ← g.expression
    node start (.resourceExpression expression)

/-- Whether a semicolon comes next and another resource after it. A semicolon before
the parenthesis is taken too. -/
def moreResources : Parser Bool := do
  if ← eat .semicolon then return !(← check .rightParen) else return false

/-- Reads the resources between the parentheses of a `try`. -/
def resources (g : Grammar) : Parser (List (Node .resource)) := do
  let _ ← expect .leftParen
  let first ← g.resource
  let others ← manyWhile moreResources g.resource
  let _ ← expect .rightParen
  return first :: others

def catchClause (g : Grammar) : Parser (Node .catchClause) := do
  let start ← position
  let _ ← expectKeyword .catch
  let _ ← expect .leftParen
  let modifiers ← g.modifiers
  let types ← g.catchTypes
  let name ← expectIdentifier
  let _ ← expect .rightParen
  let block ← g.block
  node start (.catchClause (.ofList modifiers) (.ofList types) name block)

/-- Reads a `try`, which needs resources, a catch clause or a finally block. -/
def tryStatement (g : Grammar) : Parser (Tree .statement) := do
  let token ← expectKeyword .try
  let resources := (← at? .leftParen g.resources).getD []
  let block ← g.block
  let catches ← manyWhile (checkKeyword .catch) g.catchClause
  let finallyBlock ← after? (.keyword .finally) g.block
  if resources.isEmpty && catches.isEmpty && finallyBlock.isNone then
    throw (.broken .tryNeedsPart token)
  return .tryStatement (.ofList resources) block (.ofList catches) (.ofOption finallyBlock)

/-! ### Constructor calls -/

/-- Reads the arguments of a constructor call and the semicolon. -/
def constructorCallFrom (g : Grammar) (qualifier : Tree (.option (.node .expression)))
    (typeArguments : List (Node .type)) (kind : ConstructorCall) : Parser (Tree .statement) := do
  let arguments ← g.arguments
  let _ ← expect .semicolon
  return .constructorInvocation qualifier (.ofList typeArguments) kind (.ofList arguments)

/-- Reads the word that says which constructor is called. -/
def constructorKind : Parser ConstructorCall := do
  if ← eatKeyword .this then return .this
  let _ ← expectKeyword .super
  return .super

def constructorInvocation (g : Grammar) : Parser (Tree .statement) := do
  let typeArguments ← g.typeArgumentsOrNone
  let kind ← constructorKind
  g.constructorCallFrom .absent typeArguments kind

/-! ### Declarations and expressions as statements -/

/-- Whether a class, an interface, an enum, a record or an annotation type comes
next. -/
def atTypeDeclaration : Parser Bool := do
  match ← currentKind with
  | .keyword .interface | .keyword .enum | .keyword .class => return true
  | .at => return (← peekKind 1) == .keyword .interface
  | .identifier =>
    if !(← checkWord "record") then return false
    if (← peekKind 1) != .identifier then return false
    let next ← peekKind 2
    return next == .leftParen || next == .less
  | _ => return false

/-- Whether a kind can stand after a `sealed` that modifies a local class. -/
def isWordKind : TokenKind → Bool
  | .identifier | .keyword _ => true
  | _ => false

/-- Whether modifiers come next that only a local declaration can start with. -/
def atLocalModifiers : Parser Bool := do
  match ← currentKind with
  | .keyword .final | .keyword .abstract | .keyword .static | .keyword .strictfp | .at =>
    return true
  | .identifier =>
    if ← checkWord "sealed" then
      if isWordKind (← peekKind 1) then return true
    atNonSealed
  | _ => return false

/-- Reads a local class or local variables after their modifiers. -/
def localDeclaration (g : Grammar) : Parser (Tree .statement) := do
  let start ← position
  let modifiers ← g.modifiers
  if ← atTypeDeclaration then return .localClass (← g.typeDeclaration start modifiers)
  let declaration ← g.localVariable modifiers
  let _ ← expect .semicolon
  return .localVariable declaration

/-- The qualifier of `a.super`, if an expression is one. -/
def superQualifier? : Tree .expression → Option (Tree (.option (.node .expression)))
  | .super (.present qualifier) => some (.present qualifier)
  | _ => none

/-- Reads an expression as a statement, or the constructor call that it begins. -/
def expressionStatement (g : Grammar) : Parser (Tree .statement) := do
  let expression ← g.expression
  match superQualifier? expression.inner with
  | some qualifier =>
    if ← check .leftParen then return ← g.constructorCallFrom qualifier [] .super
  | none => pure ()
  let _ ← expect .semicolon
  return .expressionStatement expression

/-- Reads a statement with a label. -/
def labeledStatement (g : Grammar) : Parser (Tree .statement) := do
  let label ← expectIdentifier
  let _ ← advance
  let statement ← g.statement
  return .labeledStatement label statement

/-- Reads local variables without modifiers, or an expression. -/
def variableOrExpression (g : Grammar) : Parser (Tree .statement) := do
  if ← atLocalVariable then
    let declaration ← g.localVariable []
    let _ ← expect .semicolon
    return .localVariable declaration
  else g.expressionStatement

/-- Whether a declaration comes next that is known by its first words. -/
def atLocalDeclaration : Parser Bool := do
  if ← atTypeDeclaration then return true else atLocalModifiers

/-- Reads a statement that no keyword of its own starts. -/
def plainStatement (g : Grammar) : Parser (Tree .statement) := do
  if ← atLocalDeclaration then g.localDeclaration
  else if !(← check .identifier) then g.variableOrExpression
  else if ← atYield then
    let _ ← advance
    return .yieldStatement (← g.expressionEnd)
  else if (← peekKind 1) == .colon then g.labeledStatement
  else g.variableOrExpression

/-! ### Any statement -/

def returnStatement (g : Grammar) : Parser (Tree .statement) := do
  let _ ← advance
  let value ← g.expressionUnless .semicolon
  let _ ← expect .semicolon
  return .returnStatement (.ofOption value)

def assertStatement (g : Grammar) : Parser (Tree .statement) := do
  let _ ← advance
  let condition ← g.expression
  let message ← after? .colon g.expression
  let _ ← expect .semicolon
  return .assertStatement condition (.ofOption message)

def synchronizedStatement (g : Grammar) : Parser (Tree .statement) := do
  let _ ← advance
  let lock ← g.condition
  let block ← g.block
  return .synchronizedStatement lock block

/-- Reads a statement that starts with a keyword. Some keywords start other things
too, which the token after them shows. -/
def keywordStatement (g : Grammar) (keyword : Keyword) : Parser (Tree .statement) := do
  match keyword with
  | .if => g.ifStatement
  | .while => g.whileStatement
  | .do => g.doStatement
  | .for => g.forStatement
  | .switch =>
    let (selector, body) ← g.switchParts
    return .switchStatement selector body
  | .return => g.returnStatement
  | .break =>
    let _ ← advance
    return .breakStatement (← jumpLabel)
  | .continue =>
    let _ ← advance
    return .continueStatement (← jumpLabel)
  | .throw =>
    let _ ← advance
    return .throwStatement (← g.expressionEnd)
  | .try => g.tryStatement
  | .assert => g.assertStatement
  | .synchronized =>
    if (← peekKind 1) == .leftParen then g.synchronizedStatement else g.plainStatement
  | .this | .super =>
    if (← peekKind 1) == .leftParen then g.constructorInvocation else g.plainStatement
  | _ => g.plainStatement

/-- Reads what a statement is. -/
def statementTree (g : Grammar) : Parser (Tree .statement) := do
  match ← currentKind with
  | .leftBrace => return .blockStatement (← g.block).inner
  | .semicolon =>
    let _ ← advance
    return .emptyStatement
  | .less => g.constructorInvocation
  | .keyword keyword => g.keywordStatement keyword
  | _ => g.plainStatement

/-- Reads a statement. -/
def statementBody (g : Grammar) : Parser (Node .statement) := do
  let start ← position
  let tree ← g.statementTree
  node start tree

end JavaSyntax.Grammar
