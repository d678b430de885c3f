import JavaSyntax.Syntax.Lookahead

/-!
# The productions that may nest

Java's productions call each other without end: an expression holds a lambda, a
lambda a block, a block a statement with an expression. The productions through
which every such circle runs are guarded, so they bound its depth. They form a
record here, and every other production is a parser that is given the record. The
record itself is then built from the inside out, one level for each step of depth.
-/

namespace JavaSyntax

/-- The guarded productions. -/
structure Grammar where
  annotationUse : Parser (Node .annotationUse)
  /-- The braces of an element value and what they hold. -/
  elementArray : Parser (Tree .elementValue)
  type : Parser (Node .type)
  /-- A type without its dimensions, as it stands after `new`. -/
  creationType : Parser (Node .type)
  expression : Parser (Node .expression)
  /-- An expression that is no assignment. -/
  conditional : Parser (Node .expression)
  /-- An operand with the operators before it. -/
  unary : Parser (Node .expression)
  pattern : Parser (Node .pattern)
  arrayInitializer : Parser (Node .expression)
  switchBody : Parser (Tree .switchBody)
  block : Parser (Node .block)
  statement : Parser (Node .statement)
  /-- A declaration after its modifiers, which start at a position. -/
  typeDeclaration : Nat → List (Node .modifier) → Parser (Node .typeDeclaration)
  /-- The members of a class whose constructors have a name. -/
  classBody : Option String → Parser (List (Node .member))

namespace Parser

/-! ### Names, literals and dimensions -/

/-- Whether a token of a kind comes next with another kind after it. -/
def checkPair (first second : TokenKind) : Parser Bool := do
  if ← check first then return (← peekKind 1) == second else return false

/-- Reads a name with dots. -/
def qualifiedName : Parser (List String) := do
  let first ← expectIdentifier
  let rest ← manyWhile (checkPair .dot .identifier) do
    let _ ← advance
    expectIdentifier
  return first :: rest

/-- Reads names with commas between them. -/
def identifierList : Parser (List String) := separatedBy .comma expectIdentifier

/-- Whether a token is an integer literal that is legal only after a minus sign. -/
def needsMinus (token : Token) : Bool :=
  match token.kind with
  | .intLiteral => token.value.any (·.isNegationOnly .int)
  | .longLiteral => token.value.any (·.isNegationOnly .long)
  | _ => false

/-- Reads a literal, which stands after a minus sign or does not. -/
def literal (negated : Bool) : Parser LiteralText := do
  match LiteralKind.ofToken? (← currentKind) with
  | none => unexpected "literal"
  | some kind =>
    let token ← peek 0
    if !negated && needsMinus token then throw (.broken .literalRange token)
    let token ← advance
    return ⟨kind, token.value, token.source⟩

/-- Reads pairs of empty brackets and counts them. -/
def emptyDimensions : Parser Nat :=
  return (← manyWhile (checkPair .leftBracket .rightBracket) (do
    let _ ← advance
    advance)).length

/-- Takes a single `>`, which may be the start of a longer token. -/
def expectClosingAngle : Parser Unit := do
  if ← splitGreater then
    let _ ← advance
  else unexpected "'>'"

/-- Whether three tokens stand together without anything between them. -/
def areAdjacent (first second third : Token) : Bool :=
  first.span.stop.offset == second.span.start.offset &&
    second.span.stop.offset == third.span.start.offset

/-- Whether `non-sealed` comes next, which is three tokens. -/
def atNonSealed : Parser Bool := do
  if !(← checkWord "non") then return false
  if (← peekKind 1) != .minus then return false
  if !(← peekIsWord 2 "sealed") then return false
  return areAdjacent (← peek 0) (← peek 1) (← peek 2)

end Parser

end JavaSyntax
