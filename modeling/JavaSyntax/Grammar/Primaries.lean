import JavaSyntax.Grammar.Switches
import JavaSyntax.Grammar.Variables
import JavaSyntax.Tree.View

/-!
# Primary expressions

Literals, names, parentheses, creations, types in the place of an expression, and
the selectors that follow any of them.
-/

namespace JavaSyntax.Grammar

open JavaSyntax.Parser

/-! ### Lambdas and references -/

/-- Reads what stands after the arrow of a lambda. -/
def lambdaBody (g : Grammar) : Parser (Tree .lambdaBody) := do
  if ← check .leftBrace then return .lambdaBlock (← g.block)
  else return .lambdaExpression (← g.expression)

/-- Reads the arrow and the body of a lambda after its parameters. -/
def lambdaFrom (g : Grammar) (start : Nat) (parameters : Tree .lambdaParameters) :
    Parser (Node .expression) := do
  let _ ← expect .arrow
  let body ← withLambdas true g.lambdaBody
  node start (.lambda parameters body)

/-- Reads the name of a method after `::`, or `new`. -/
def referenceName : Parser String := do
  if ← eatKeyword .new then return "new" else expectIdentifier

/-- Reads `::` and what follows it. -/
def methodReference (g : Grammar) (start : Nat) (target : Tree .referenceTarget) :
    Parser (Node .expression) := do
  let _ ← expect .colonColon
  let typeArguments ← g.typeArgumentsOrNone
  let name ← referenceName
  node start (.methodReference target (.ofList typeArguments) name)

/-- Reads what follows a type in the place of an expression. -/
def typePrimaryFrom (g : Grammar) (start : Nat) (type : Node .type) :
    Parser (Node .expression) := do
  if ← check .colonColon then g.methodReference start (.typeTarget type)
  else
    let _ ← expect .dot
    let _ ← expectKeyword .class
    node start (.classLiteral type)

/-! ### Creations -/

/-- The dimensions of a new array that were read, last first. -/
structure NewDimensions where
  sizes : List (Node .expression) := []
  /-- How many dimensions without a size follow. -/
  extra : Nat := 0
  annotations : List (List (Node .annotationUse)) := []

/-- Reads one more dimension of a new array. After a dimension without a size, one
with a size is an index. -/
def newDimension (g : Grammar) (d : NewDimensions) :
    Parser (Step NewDimensions NewDimensions) := do
  let start ← position
  let annotations ← g.annotations
  if !(← check .leftBracket) then
    if annotations.isEmpty then return .done d else unexpected "'['"
  else if (← peekKind 1) == .rightBracket then
    let _ ← advance
    let _ ← advance
    return .again { d with extra := d.extra + 1, annotations := annotations :: d.annotations }
  else if d.extra = 0 then
    let _ ← advance
    let size ← withLambdas true g.expression
    let _ ← expect .rightBracket
    return .again { d with sizes := size :: d.sizes, annotations := annotations :: d.annotations }
  else
    restore start
    return .done d

/-- Reads the dimensions of a new array, and its elements if no size is given. -/
def arrayCreation (g : Grammar) (start : Nat) (element : Node .type) :
    Parser (Node .expression) := do
  let d ← loop g.newDimension {}
  let initializer ← if d.sizes.isEmpty then some <$> g.arrayInitializer else pure none
  node start (.arrayCreation element (.ofList d.sizes.reverse) d.extra
    (.ofList (d.annotations.reverse.map .ofList)) (.ofOption initializer))

/-- Reads the arguments of a new object, and its own members if it has any. -/
def objectCreation (g : Grammar) (start : Nat) (outer : Option (Node .expression))
    (typeArguments : List (Node .type)) (type : Node .type) : Parser (Node .expression) := do
  let arguments ← g.arguments
  let body ← at? .leftBrace (withLambdas true (g.classBody none))
  node start (.objectCreation (.ofOption outer) (.ofList typeArguments) type (.ofList arguments)
    (.ofOption (body.map .ofList)))

/-- Reads a creation. The outer object stands before the dot, if there is one. -/
def creation (g : Grammar) (start : Nat) (outer : Option (Node .expression)) :
    Parser (Node .expression) := do
  let _ ← expectKeyword .new
  let typeArguments ← g.typeArgumentsOrNone
  let type ← g.creationType
  if outer.isNone && typeArguments.isEmpty then
    if ← atDimension then return ← g.arrayCreation start type
  g.objectCreation start outer typeArguments type

/-! ### Names and other beginnings -/

/-- Whether a token after a name can make the name the start of a type. -/
def canContinueType : TokenKind → Bool
  | .less | .leftBracket | .dot => true
  | _ => false

/-- Whether a generic type or an array type comes next in the place of an
expression, given the token after the first name. -/
def atTypePrimary (next : TokenKind) : Parser Bool := do
  if canContinueType next then return (← typePrimary?).isSome else return false

/-- Reads an expression that starts with a name. -/
def namePrimary (g : Grammar) (start : Nat) : Parser (Node .expression) := do
  let next ← peekKind 1
  if next == .arrow && (← get).lambdas then
    let name ← expectIdentifier
    g.lambdaFrom start (.implicitParameters [name] false)
  else if ← atTypePrimary next then
    let type ← g.type
    g.typePrimaryFrom start type
  else
    let name ← expectIdentifier
    if ← check .leftParen then
      let arguments ← g.arguments
      node start (.methodCall .absent .nil name (.ofList arguments))
    else node start (.simpleName name)

/-- Reads an expression in parentheses. -/
def parenthesized (g : Grammar) (start : Nat) : Parser (Node .expression) := do
  let _ ← advance
  let expression ← withLambdas true g.expression
  let _ ← expect .rightParen
  node start (.parenthesized expression)

/-- Reads an expression that starts with a keyword. -/
def keywordPrimary (g : Grammar) (start : Nat) (keyword : Keyword) :
    Parser (Node .expression) := do
  match keyword with
  | .this =>
    let _ ← advance
    node start (.this .absent)
  | .super =>
    let _ ← advance
    node start (.super .absent)
  | .new => g.creation start none
  | .switch =>
    let (selector, body) ← g.switchParts
    node start (.switchExpression selector body)
  | keyword =>
    if keyword.isPrimitiveType || keyword = .void then
      let type ← g.resultType
      g.typePrimaryFrom start type
    else unexpected "expression"

/-- Reads an expression without its selectors. -/
def primary (g : Grammar) : Parser (Node .expression) := do
  let start ← position
  match ← currentKind with
  | .identifier => g.namePrimary start
  | .leftParen => g.parenthesized start
  | .keyword keyword => g.keywordPrimary start keyword
  | kind =>
    if kind.isLiteral then
      let literal ← literal false
      node start (.literal literal)
    else unexpected "expression"

/-! ### Selectors -/

/-- The class type that names spell. -/
def plainClassType (names : List String) : Tree .type :=
  .classType (.ofList (names.map fun name => .classTypeSegment .nil name .absent))

/-- Reads `class` after an expression, which must be a name with dots. -/
def classLiteral (start : Nat) (target : Node .expression) : Parser (Node .expression) := do
  match target.qualifiedName? with
  | none => unexpected "identifier"
  | some names =>
    let _ ← advance
    node start (.classLiteral (.located (plainClassType names) target.span target.source))

/-- Reads what stands after a dot. -/
def dotSelector (g : Grammar) (start : Nat) (target : Node .expression) :
    Parser (Node .expression) := do
  match ← currentKind with
  | .less =>
    let typeArguments ← g.typeArguments
    let name ← expectIdentifier
    let arguments ← g.arguments
    node start (.methodCall (.present target) (.ofList typeArguments) name (.ofList arguments))
  | .keyword .this =>
    let _ ← advance
    node start (.this (.present target))
  | .keyword .super =>
    let _ ← advance
    node start (.super (.present target))
  | .keyword .new => g.creation start (some target)
  | .keyword .class => classLiteral start target
  | _ =>
    let name ← expectIdentifier
    if ← check .leftParen then
      let arguments ← g.arguments
      node start (.methodCall (.present target) .nil name (.ofList arguments))
    else node start (.fieldAccess target name)

/-- Reads one selector after an expression, or ends there. -/
def selector (g : Grammar) (start : Nat) (target : Node .expression) :
    Parser (Step (Node .expression) (Node .expression)) := do
  match ← currentKind with
  | .dot =>
    let _ ← advance
    return .again (← g.dotSelector start target)
  | .leftBracket =>
    let _ ← advance
    let index ← withLambdas true g.expression
    let _ ← expect .rightBracket
    return .again (← node start (.arrayAccess target index))
  | .colonColon => return .again (← g.methodReference start (.expressionTarget target))
  | kind =>
    match UnaryOperator.afterOperand? kind with
    | none => return .done target
    | some operator =>
      let _ ← advance
      return .again (← node start (.unary operator target))

/-- Reads all selectors after an expression. -/
def selectors (g : Grammar) (start : Nat) (target : Node .expression) :
    Parser (Node .expression) :=
  loop (g.selector start) target

end JavaSyntax.Grammar
