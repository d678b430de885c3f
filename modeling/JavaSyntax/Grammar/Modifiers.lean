import JavaSyntax.Grammar.Basic

/-!
# Annotations and modifiers

An annotation with its arguments, and the modifiers in front of a declaration.
-/

namespace JavaSyntax

namespace Parser

/-- Whether an annotation comes next; `@interface` starts a declaration instead. -/
def atAnnotation : Parser Bool := do
  if ← check .at then return (← peekKind 1) != .keyword .interface else return false

end Parser

namespace Grammar

open JavaSyntax.Parser

/-- Reads all annotations that come next. -/
def annotations (g : Grammar) : Parser (List (Node .annotationUse)) :=
  manyWhile atAnnotation g.annotationUse

/-- Reads the value of an element. -/
def elementValue (g : Grammar) : Parser (Tree .elementValue) := do
  match ← currentKind with
  | .at => return .elementAnnotated (← g.annotationUse)
  | .leftBrace => g.elementArray
  | _ => return .elementExpression (← g.expression)

/-- Reads the braces of an element value and what they hold. -/
def elementArrayBody (g : Grammar) : Parser (Tree .elementValue) := do
  let _ ← advance
  let values ← trailingCommas .rightBrace g.elementValue
  let _ ← expect .rightBrace
  return .elementArray (.ofList values)

/-- Reads the name and the value of an element. -/
def elementValuePair (g : Grammar) : Parser (Tree .elementValuePair) := do
  let name ← expectIdentifier
  let _ ← expect .assign
  return .elementValuePair name (← g.elementValue)

/-- Reads what stands between the parentheses of an annotation. -/
def annotationArguments (g : Grammar) : Parser (Tree .annotationArguments) := do
  if ← check .rightParen then return .namedArguments .nil
  if ← checkPair .identifier .assign then
    return .namedArguments (.ofList (← separatedBy .comma g.elementValuePair))
  return .singleArgument (← g.elementValue)

/-- Reads the parentheses of an annotation, if there are any. -/
def optionalArguments (g : Grammar) : Parser (Tree .annotationArguments) := do
  if ← eat .leftParen then
    let arguments ← g.annotationArguments
    let _ ← expect .rightParen
    return arguments
  else return .noArguments

/-- Reads an annotation. -/
def annotationBody (g : Grammar) : Parser (Node .annotationUse) := do
  let start ← position
  let _ ← expect .at
  let name ← qualifiedName
  let arguments ← g.optionalArguments
  node start (.annotationUse name arguments)

/-- Whether a word ahead can be what `sealed` modifies. -/
def canBeSealed : TokenKind → Bool
  | .identifier | .keyword _ | .at => true
  | _ => false

/-- Reads `sealed` or `non-sealed`, if it comes next as a modifier. -/
def sealing? : Parser (Option (Tree .modifier)) := do
  if ← checkWord "sealed" then
    if canBeSealed (← peekKind 1) then
      let _ ← advance
      return some .sealedModifier
  if ← atNonSealed then
    let _ ← advance
    let _ ← advance
    let _ ← advance
    return some .nonSealedModifier
  return none

/-- Whether a keyword at the current token is a modifier here: `default` may be a
label of a switch, and `synchronized` a statement. -/
def isModifierHere (keyword : Keyword) : Parser Bool := do
  match keyword with
  | .default =>
    let next ← peekKind 1
    return !(next == .colon || next == .arrow)
  | .synchronized => return (← peekKind 1) != .leftParen
  | _ => return keyword.isModifier

/-- Reads a modifier, if one comes next. -/
def modifier? (g : Grammar) : Parser (Option (Tree .modifier)) := do
  match ← currentKind with
  | .at =>
    if ← atAnnotation then return some (.annotatedModifier (← g.annotationUse).inner)
    else return none
  | .keyword keyword =>
    if ← isModifierHere keyword then
      let _ ← advance
      return some (.keywordModifier keyword)
    else return none
  | .identifier => sealing?
  | _ => return none

/-- Reads all modifiers that come next. -/
def modifiers (g : Grammar) : Parser (List (Node .modifier)) :=
  many do
    let start ← position
    match ← g.modifier? with
    | some tree => return some (← node start tree)
    | none => return none

end Grammar

end JavaSyntax
