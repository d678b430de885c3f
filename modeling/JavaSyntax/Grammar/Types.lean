import JavaSyntax.Grammar.Modifiers

/-!
# Types and patterns

Types with their annotations, arguments and dimensions, and type parameters; type patterns
and record patterns, as they stand after `instanceof` and `case`.
-/

namespace JavaSyntax.Grammar

open JavaSyntax.Parser

/-! ### Class types -/

/-- Whether a dot comes next that goes on with a class type. -/
def atSegment : Parser Bool := do
  if ← check .dot then
    let next ← peekKind 1
    return next == .identifier || next == .at
  else return false

/-- Reads the bound of a wildcard, if there is one. -/
def wildcardBound? (g : Grammar) : Parser (Option (Tree .wildcardBound)) := do
  if ← eatKeyword .extends then return some (.extendsBound (← g.type))
  if ← eatKeyword .super then return some (.superBound (← g.type))
  return none

/-- Reads a type or a wildcard between angle brackets. -/
def typeArgument (g : Grammar) : Parser (Node .type) := do
  let start ← position
  let annotations ← g.annotations
  if ← eat .question then
    let bound ← g.wildcardBound?
    node start (.wildcardType (.ofList annotations) (.ofOption bound))
  else
    restore start
    g.type

/-- Reads the arguments of a type. None at all is the diamond `<>`. -/
def typeArguments (g : Grammar) : Parser (List (Node .type)) := do
  let _ ← expect .less
  if ← splitGreater then
    let _ ← advance
    return []
  let arguments ← separatedBy .comma g.typeArgument
  expectClosingAngle
  return arguments

/-- Reads the arguments of a type, if there are any. -/
def typeArguments? (g : Grammar) : Parser (Option (List (Node .type))) := at? .less g.typeArguments

/-- Reads the arguments of a type, or takes there to be none. -/
def typeArgumentsOrNone (g : Grammar) : Parser (List (Node .type)) :=
  return (← g.typeArguments?).getD []

/-- Reads a name of a class type after its annotations. -/
def segment (g : Grammar) (annotations : List (Node .annotationUse)) :
    Parser (Tree .classTypeSegment) := do
  let name ← expectIdentifier
  let arguments ← g.typeArguments?
  return .classTypeSegment (.ofList annotations) name (.ofOption (arguments.map .ofList))

/-- Reads a class type after its first annotations. Its last name may not be
restricted. -/
def classTypeFrom (g : Grammar) (start : Nat) (annotations : List (Node .annotationUse)) :
    Parser (Node .type) := do
  let first ← peek 0
  let segment ← g.segment annotations
  let (last, segments) ← loop (fun (last, segments) => do
    if ← atSegment then
      let _ ← advance
      let annotations ← g.annotations
      let token ← peek 0
      let segment ← g.segment annotations
      return .again (token, segment :: segments)
    else return .done (last, segments.reverse)) (first, [segment])
  if isRestrictedTypeName last.source then throw (.restricted last)
  node start (.classType (.ofList segments))

/-- Reads a class type, as it stands after `extends` or `implements`. -/
def classType (g : Grammar) : Parser (Node .type) := do
  let start ← position
  let annotations ← g.annotations
  g.classTypeFrom start annotations

/-- Reads class types with commas between them. -/
def classTypeList (g : Grammar) : Parser (List (Node .type)) := separatedBy .comma g.classType

/-! ### Any type -/

/-- The primitive type whose keyword comes next. -/
def primitive? : Parser (Option PrimitiveType) := do
  match ← currentKind with
  | .keyword keyword => return PrimitiveType.ofKeyword? keyword
  | _ => return none

/-- Whether `var` comes next as the type of a variable and not as a name. -/
def atVar : Parser Bool := do
  if ← checkWord "var" then
    let next ← peekKind 1
    return !(next == .dot || next == .less)
  else return false

/-- Reads a type without its dimensions, which may be `var` or may not. -/
def elementType (g : Grammar) (allowVar : Bool) : Parser (Node .type) := do
  let start ← position
  let annotations ← g.annotations
  match ← primitive? with
  | some primitive =>
    let _ ← advance
    node start (.primitiveType (.ofList annotations) primitive)
  | none =>
    if allowVar && annotations.isEmpty then
      if ← atVar then
        let _ ← advance
        return ← node start .varType
    g.classTypeFrom start annotations

/-- Whether a bracket or an annotation comes next. -/
def atDimension : Parser Bool := do
  let next ← currentKind
  return next == .leftBracket || next == .at

/-- Reads a dimension with its annotations, if one comes next. -/
def dimension? (g : Grammar) : Parser (Option (Tree .dimension)) := do
  if ← atDimension then
    let start ← position
    let annotations ← g.annotations
    if ← checkPair .leftBracket .rightBracket then
      let _ ← advance
      let _ ← advance
      return some (.dimension (.ofList annotations))
    restore start
  return none

/-- Reads a type. -/
def typeBody (g : Grammar) : Parser (Node .type) := do
  let start ← position
  let element ← g.elementType true
  let dimensions ← many g.dimension?
  if dimensions.isEmpty then return element
  node start (.arrayType element (.ofList dimensions))

/-- Reads a type or `void`. -/
def resultType (g : Grammar) : Parser (Node .type) := do
  if ← checkKeyword .void then
    let start ← position
    let _ ← advance
    node start .voidType
  else g.type

/-- Reads the alternatives of a catch clause. -/
def catchTypes (g : Grammar) : Parser (List (Node .type)) := separatedBy .pipe g.type

/-- Reads the type of a cast, which may be an intersection. -/
def castType (g : Grammar) : Parser (Node .type) := do
  let start ← position
  let first ← g.type
  let others ← manyWhile (eat .amp) g.type
  if others.isEmpty then return first
  node start (.intersectionType (.ofList (first :: others)))

/-! ### Type parameters -/

/-- Reads the bounds of a type parameter, if there are any. -/
def typeBounds (g : Grammar) : Parser (List (Node .type)) := do
  if ← eatKeyword .extends then separatedBy .amp g.type else return []

/-- Reads a type parameter. -/
def typeParameter (g : Grammar) : Parser (Node .typeParameter) := do
  let start ← position
  let annotations ← g.annotations
  let name ← expectTypeIdentifier
  let bounds ← g.typeBounds
  node start (.typeParameter (.ofList annotations) name (.ofList bounds))

/-- Reads type parameters, if there are any. -/
def typeParameters (g : Grammar) : Parser (List (Node .typeParameter)) := do
  if ← eat .less then
    let parameters ← separatedBy .comma g.typeParameter
    expectClosingAngle
    return parameters
  else return []

/-! ### Patterns -/

/-- Whether `_` comes next as a component of a record pattern. -/
def atUnnamed : Parser Bool := do
  if ← checkWord "_" then
    let next ← peekKind 1
    return next == .comma || next == .rightParen
  else return false

/-- Reads the components of a record pattern after its opening parenthesis. -/
def patternComponents (g : Grammar) : Parser (List (Node .pattern)) := do
  let components ← if ← check .rightParen then pure [] else separatedBy .comma g.pattern
  let _ ← expect .rightParen
  return components

/-- Reads a pattern. Only one without modifiers can be a record pattern. -/
def patternBody (g : Grammar) : Parser (Node .pattern) := do
  let start ← position
  if ← atUnnamed then
    let _ ← advance
    return ← node start .unnamedPattern
  let modifiers ← g.modifiers
  let type ← g.type
  if modifiers.isEmpty then
    if ← eat .leftParen then
      let components ← g.patternComponents
      return ← node start (.recordPattern type (.ofList components))
  let name ← expectIdentifier
  node start (.typePattern (.ofList modifiers) type name)

end JavaSyntax.Grammar
