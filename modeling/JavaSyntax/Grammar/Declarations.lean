import JavaSyntax.Grammar.Statements

/-!
# Declarations of types

Classes, interfaces, enums, records and annotation types, and their members.
-/

namespace JavaSyntax.Grammar

open JavaSyntax.Parser

/-! ### Headers -/

/-- Reads class types after a keyword, if it comes next. -/
def typesAfter (g : Grammar) (keyword : Keyword) : Parser (List (Node .type)) := do
  if ← eatKeyword keyword then g.classTypeList else return []

/-- Reads the types that are permitted to extend a sealed type. -/
def permitted (g : Grammar) : Parser (List (Node .type)) := do
  if ← eatWord "permits" then g.classTypeList else return []

def classDeclaration (g : Grammar) (modifiers : List (Node .modifier)) :
    Parser (Tree .typeDeclaration) := do
  let _ ← expectKeyword .class
  let name ← expectTypeIdentifier
  let typeParameters ← g.typeParameters
  let extended ← after? (.keyword .extends) g.classType
  let implemented ← g.typesAfter .implements
  let permitted ← g.permitted
  let body ← g.classBody (some name)
  return .classDeclaration (.ofList modifiers) name (.ofList typeParameters) (.ofOption extended)
    (.ofList implemented) (.ofList permitted) (.ofList body)

def interfaceDeclaration (g : Grammar) (modifiers : List (Node .modifier)) :
    Parser (Tree .typeDeclaration) := do
  let _ ← expectKeyword .interface
  let name ← expectTypeIdentifier
  let typeParameters ← g.typeParameters
  let extended ← g.typesAfter .extends
  let permitted ← g.permitted
  let body ← g.classBody none
  return .interfaceDeclaration (.ofList modifiers) name (.ofList typeParameters)
    (.ofList extended) (.ofList permitted) (.ofList body)

def annotationTypeDeclaration (g : Grammar) (modifiers : List (Node .modifier)) :
    Parser (Tree .typeDeclaration) := do
  let _ ← expect .at
  let _ ← expectKeyword .interface
  let name ← expectTypeIdentifier
  let body ← g.classBody none
  return .annotationTypeDeclaration (.ofList modifiers) name (.ofList body)

def recordDeclaration (g : Grammar) (modifiers : List (Node .modifier)) :
    Parser (Tree .typeDeclaration) := do
  let _ ← expectWord "record"
  let name ← expectTypeIdentifier
  let typeParameters ← g.typeParameters
  let components ← g.formalParameters
  let implemented ← g.typesAfter .implements
  let body ← g.classBody (some name)
  return .recordDeclaration (.ofList modifiers) name (.ofList typeParameters)
    (.ofList components) (.ofList implemented) (.ofList body)

/-! ### Members -/

/-- Reads a constructor from its name on. -/
def constructorFrom (g : Grammar) (modifiers : List (Node .modifier))
    (typeParameters : List (Node .typeParameter)) : Parser (Tree .member) := do
  let name ← expectIdentifier
  let parameters ← g.formalParameters
  let thrown ← g.typesAfter .throws
  let body ← g.block
  return .constructorDeclaration (.ofList modifiers) (.ofList typeParameters) name
    (.ofList parameters) (.ofList thrown) body

/-- Reads the constructor of a record that repeats no parameters. -/
def compactConstructorFrom (g : Grammar) (modifiers : List (Node .modifier)) :
    Parser (Tree .member) := do
  let name ← expectIdentifier
  let body ← g.block
  return .compactConstructor (.ofList modifiers) name body

/-- Reads the semicolon or the body that ends a method. -/
def methodBody? (g : Grammar) : Parser (Option (Node .block)) := do
  if ← eat .semicolon then return none else return some (← g.block)

/-- Reads a method from its name on. -/
def methodFrom (g : Grammar) (modifiers : List (Node .modifier))
    (typeParameters : List (Node .typeParameter)) (returnType : Node .type) :
    Parser (Tree .member) := do
  let name ← expectIdentifier
  let parameters ← g.formalParameters
  let dimensions ← emptyDimensions
  let thrown ← g.typesAfter .throws
  let defaultValue ← after? (.keyword .default) g.elementValue
  let body ← g.methodBody?
  return .methodDeclaration (.ofList modifiers) (.ofList typeParameters) returnType name
    (.ofList parameters) dimensions (.ofList thrown) (.ofOption defaultValue) (.ofOption body)

/-- Reads a method or fields after their modifiers and type parameters. -/
def methodOrField (g : Grammar) (modifiers : List (Node .modifier))
    (typeParameters : List (Node .typeParameter)) : Parser (Tree .member) := do
  let type ← g.resultType
  if ← checkPair .identifier .leftParen then g.methodFrom modifiers typeParameters type
  else
    let declarators ← g.variableDeclarators
    let _ ← expect .semicolon
    return .fieldDeclaration (.ofList modifiers) type (.ofList declarators)

/-- Whether the name of the class comes next, in whose place a constructor can
stand. -/
def atClassName (className : Option String) : Parser Bool := do
  match className with
  | none => return false
  | some name => if ← check .identifier then return (← peek 0).source == name else return false

/-- Reads a constructor, a method or fields after their modifiers. -/
def memberAfterModifiers (g : Grammar) (className : Option String)
    (modifiers : List (Node .modifier)) : Parser (Tree .member) := do
  let typeParameters ← g.typeParameters
  if ← atClassName className then
    let next ← peekKind 1
    if next = .leftParen then return ← g.constructorFrom modifiers typeParameters
    if next = .leftBrace ∧ typeParameters.isEmpty then
      return ← g.compactConstructorFrom modifiers
  g.methodOrField modifiers typeParameters

/-- Reads an initializer from its brace on. -/
def initializerFrom (g : Grammar) (isStatic : Bool) : Parser (Tree .member) :=
  return .initializerBlock isStatic (← g.block)

/-- Reads what a member is. -/
def memberTree (g : Grammar) (className : Option String) : Parser (Tree .member) := do
  let start ← position
  if ← eat .semicolon then return .emptyMember
  if ← checkPair (.keyword .static) .leftBrace then
    let _ ← advance
    return ← g.initializerFrom true
  if ← check .leftBrace then return ← g.initializerFrom false
  let modifiers ← g.modifiers
  if ← atTypeDeclaration then return .memberType (← g.typeDeclaration start modifiers)
  g.memberAfterModifiers className modifiers

/-- Reads a member. -/
def member (g : Grammar) (className : Option String) : Parser (Node .member) := do
  let start ← position
  let tree ← g.memberTree className
  node start tree

/-- Reads members up to a closing brace, which stays. -/
def members (g : Grammar) (className : Option String) : Parser (List (Node .member)) :=
  manyUntil .rightBrace (g.member className)

/-- Reads the braces of a class and the members between them. -/
def classBodyBraces (g : Grammar) (className : Option String) :
    Parser (List (Node .member)) := do
  let _ ← expect .leftBrace
  let members ← g.members className
  let _ ← expect .rightBrace
  return members

/-! ### Enums -/

def enumConstant (g : Grammar) : Parser (Node .enumConstant) := do
  let start ← position
  let annotations ← g.annotations
  let name ← expectIdentifier
  let arguments ← at? .leftParen g.arguments
  let body ← at? .leftBrace (g.classBody none)
  node start (.enumConstant (.ofList annotations) name (.ofOption (arguments.map .ofList))
    (.ofOption (body.map .ofList)))

/-- Whether a token ends the constants of an enum. -/
def endsConstants : TokenKind → Bool
  | .semicolon | .rightBrace => true
  | _ => false

/-- Reads the constants of an enum. A comma may stand after the last one. -/
def enumConstants (g : Grammar) : Parser (List (Node .enumConstant)) :=
  loop (fun constants => do
    if endsConstants (← currentKind) then return .done constants.reverse
    let constants := (← g.enumConstant) :: constants
    if ← eat .comma then return .again constants else return .done constants.reverse) []

/-- Reads the members of an enum, which a semicolon parts from the constants. -/
def enumMembers (g : Grammar) (name : String) : Parser (List (Node .member)) := do
  if ← eat .semicolon then g.members (some name) else return []

def enumDeclaration (g : Grammar) (modifiers : List (Node .modifier)) :
    Parser (Tree .typeDeclaration) := do
  let _ ← expectKeyword .enum
  let name ← expectTypeIdentifier
  let implemented ← g.typesAfter .implements
  let _ ← expect .leftBrace
  let constants ← g.enumConstants
  let body ← g.enumMembers name
  let _ ← expect .rightBrace
  return .enumDeclaration (.ofList modifiers) name (.ofList implemented) (.ofList constants)
    (.ofList body)

/-! ### Any declaration of a type -/

/-- Reads what a declaration is after its modifiers. -/
def typeDeclarationTree (g : Grammar) (modifiers : List (Node .modifier)) :
    Parser (Tree .typeDeclaration) := do
  match ← currentKind with
  | .keyword .class => g.classDeclaration modifiers
  | .keyword .interface => g.interfaceDeclaration modifiers
  | .keyword .enum => g.enumDeclaration modifiers
  | .at => g.annotationTypeDeclaration modifiers
  | .identifier =>
    if ← checkWord "record" then g.recordDeclaration modifiers
    else unexpected "type declaration"
  | _ => unexpected "type declaration"

/-- Reads a declaration after its modifiers, which start at a position. -/
def typeDeclarationBody (g : Grammar) (start : Nat) (modifiers : List (Node .modifier)) :
    Parser (Node .typeDeclaration) := do
  let tree ← g.typeDeclarationTree modifiers
  node start tree

end JavaSyntax.Grammar
