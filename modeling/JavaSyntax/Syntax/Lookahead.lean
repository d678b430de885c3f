import JavaSyntax.Syntax.Parser

/-!
# Looking ahead

Some places of the grammar are decided by tokens further on: what a parenthesis
opens, whether a statement declares a variable, whether a name starts a type. A
lookahead walks over the tokens by their kinds alone, builds nothing, and goes back
to where it started however it ends. A lookahead that uses up its budget answers
"no".
-/

namespace JavaSyntax

/-- What a parenthesis opens where an expression is expected. -/
inductive ParenKind where
  | parenthesized | cast | explicitLambda | implicitLambda
deriving DecidableEq, Repr

namespace ParenKind

def text : ParenKind → String
  | parenthesized => "parenthesized"
  | cast => "cast"
  | explicitLambda => "explicit_lambda"
  | implicitLambda => "implicit_lambda"

def isLambda : ParenKind → Bool
  | explicitLambda | implicitLambda => true
  | _ => false

end ParenKind

/-- What an expression is that starts with a generic type or an array type. -/
inductive TypePrimary where
  | methodReference | classLiteral
deriving DecidableEq, Repr

namespace TypePrimary

def name : TypePrimary → String
  | methodReference => "MethodReference"
  | classLiteral => "ClassLiteral"

end TypePrimary

/-- What a lookahead keeps in mind. -/
structure LookaheadState where
  /-- How many tokens it has passed, with each `>` of a longer token for itself. -/
  consumed : Nat := 0
  /-- How many `>` of the current token are not yet passed, if some of them are. -/
  pending : Nat := 0
  sawTypeArguments : Bool := false
  sawDimensions : Bool := false
deriving DecidableEq, Repr

/-- A walk over the tokens ahead. -/
abbrev Lookahead := StateT LookaheadState Parser

namespace Lookahead

open JavaSyntax.Parser (Step)

variable {α β : Type}

/-- Runs a lookahead and goes back to where it started. -/
def run (action : Lookahead α) : Parser α := do
  let start ← Parser.position
  Parser.andThen (·.restorePosition start) (action.run' {})

/-! ### Single tokens -/

/-- The kind of the token so many places ahead. -/
def kindAt (n : Nat) : Lookahead TokenKind := do
  let pending := (← get).pending
  if pending = 0 then Parser.peekKind n
  else if n < pending then return .greater
  else Parser.peekKind (n - pending + 1)

def currentKind : Lookahead TokenKind := kindAt 0

def check (kind : TokenKind) : Lookahead Bool := return (← currentKind) == kind

/-- Whether the tokens ahead start with two kinds. -/
def checkPair (first second : TokenKind) : Lookahead Bool := do
  if ← check first then return (← kindAt 1) == second else return false

/-- Passes the current token. -/
def bump : Lookahead Unit := do
  let s ← get
  set { s with consumed := s.consumed + 1, pending := s.pending - 1 }
  if s.pending ≤ 1 then
    let _ ← (Parser.advance : Parser Token)

/-- Passes the current token if it is of a kind. -/
def eat (kind : TokenKind) : Lookahead Bool := do
  if ← check kind then
    bump
    return true
  else return false

/-- Starts to pass a token that has several `>`, of which so many remain. -/
def openShift (remaining : Nat) : Lookahead Unit :=
  modify fun s => { s with consumed := s.consumed + 1, pending := remaining }

/-- Passes one `>`, which may be a part of a longer token. -/
def bumpClosingAngle : Lookahead Bool := do
  match ← currentKind with
  | .greater => bump
  | .shiftRight => openShift 1
  | .unsignedShiftRight => openShift 2
  | _ => return false
  return true

/-- Whether the budget is used up. -/
def exhausted : Lookahead Bool := return Limits.maxLookaheadTokens < (← get).consumed

/-- Goes back to a position and forgets what was seen. -/
def rewind (position : Nat) : Lookahead Unit := do
  (Parser.restore position : Parser Unit)
  set ({} : LookaheadState)

/-! ### Repetition -/

/-- Repeats a step at most so many times. -/
def loopFor (step : α → Lookahead (Step α β)) : Nat → α → Lookahead β
  | 0, _ => StateT.lift (Parser.unexpected "end of input")
  | n + 1, a => do
    match ← step a with
    | .again a => loopFor step n a
    | .done b => return b

/-- Repeats a step until it is done. Every step but the last passes a token. -/
def loop (step : α → Lookahead (Step α β)) (a : α) : Lookahead β := do
  let s ← (get : Parser ParserState)
  loopFor step (Parser.loopBound s) a

/-- Passes pairs of empty brackets. Says whether there were any. -/
def skipDimensions : Lookahead Bool :=
  loop (fun any => do
    if ← checkPair .leftBracket .rightBracket then
      bump
      bump
      return .again true
    else return .done any) false

/-! ### Names, groups and annotations -/

/-- Passes a bracketed group that the current token opens. -/
def skipBalanced : Lookahead Bool :=
  loop (fun depth => do
    if ← exhausted then return .done false
    match ← currentKind with
    | .leftParen | .leftBracket | .leftBrace =>
      bump
      return .again (depth + 1)
    | .rightParen | .rightBracket | .rightBrace =>
      bump
      if depth ≤ 1 then return .done true else return .again (depth - 1)
    | .endOfInput => return .done false
    | _ =>
      bump
      return .again depth) 0

/-- Passes a name with dots. -/
def skipQualifiedName : Lookahead Bool := do
  if ← eat .identifier then
    loop (fun _ => do
      if ← checkPair .dot .identifier then
        bump
        bump
        return .again ()
      else return .done true) ()
  else return false

def atAnnotation : Lookahead Bool := do
  if ← check .at then return (← kindAt 1) != .keyword .interface else return false

/-- Passes an annotation that starts at the current token. -/
def skipAnnotation : Lookahead Bool := do
  bump
  if ← skipQualifiedName then
    if ← check .leftParen then skipBalanced else return true
  else return false

/-- Passes annotations. Fails if one of them is broken. -/
def skipAnnotations : Lookahead Bool :=
  loop (fun _ => do
    if ← atAnnotation then
      if ← skipAnnotation then return .again () else return .done false
    else return .done true) ()

/-- Passes `final` and annotations. Says whether there were any. -/
def skipModifiers : Lookahead Bool :=
  loop (fun any => do
    if ← eat (.keyword .final) then return .again true
    if ← atAnnotation then
      if ← skipAnnotation then return .again true else return .done any
    else return .done any) false

/-! ### Types -/

/-- Passes one argument of a type, given how to pass a type. -/
def skipTypeArgument (skipType : Lookahead Bool) : Lookahead Bool := do
  if ← eat .question then
    match ← currentKind with
    | .keyword .extends | .keyword .super =>
      bump
      skipType
    | _ => return true
  else skipType

/-- Passes the arguments of a type from the `<` on, given how to pass a type. -/
def skipTypeArguments (skipType : Lookahead Bool) : Lookahead Bool := do
  bump
  modify fun s => { s with sawTypeArguments := true }
  if ← bumpClosingAngle then return true
  loop (fun _ => do
    if ← exhausted then return .done false
    if !(← skipAnnotations) then return .done false
    if !(← skipTypeArgument skipType) then return .done false
    if ← eat .comma then return .again ()
    return .done (← bumpClosingAngle)) ()

/-- Passes the arguments after a name, if there are any. -/
def skipOptionalArguments (skipType : Lookahead Bool) : Lookahead Bool := do
  if ← check .less then skipTypeArguments skipType else return true

/-- Whether a dot comes next that goes on with a class type. -/
def atSegment : Lookahead Bool := do
  if ← check .dot then
    let next ← kindAt 1
    return next == .identifier || next == .at
  else return false

/-- Passes the names of a class type with their arguments. -/
def skipClassType (skipType : Lookahead Bool) : Lookahead Bool := do
  bump
  if !(← skipOptionalArguments skipType) then return false
  loop (fun _ => do
    if ← atSegment then
      bump
      if !(← skipAnnotations) then return .done false
      if !(← eat .identifier) then return .done false
      if ← skipOptionalArguments skipType then return .again () else return .done false
    else return .done true) ()

/-- Passes a type without its dimensions. -/
def skipElementType (skipType : Lookahead Bool) : Lookahead Bool := do
  match ← currentKind with
  | .keyword keyword =>
    if keyword.isPrimitiveType then
      bump
      return true
    else return false
  | .identifier => skipClassType skipType
  | _ => return false

/-- Passes a type whose arguments are nested at most so deep. -/
def skipTypeWithin : Nat → Lookahead Bool
  | 0 => return false
  | n + 1 => do
    if !(← skipAnnotations) then return false
    if !(← skipElementType (skipTypeWithin n)) then return false
    if ← skipDimensions then modify fun s => { s with sawDimensions := true }
    return true

/-- Passes a type. The budget ends before the nesting does. -/
def skipType : Lookahead Bool := skipTypeWithin (Limits.maxLookaheadTokens + 2)

/-! ### Lists -/

/-- Passes names with commas between them and counts them. Anything else gives no
count. -/
def skipIdentifierList : Lookahead (Option Nat) :=
  loop (fun count => do
    if ← exhausted then return .done none
    if !(← eat .identifier) then return .done none
    if ← eat .comma then return .again (count + 1) else return .done (some (count + 1))) 0

/-- Passes parameters that have a type, with commas between them. -/
def skipFormalParameters : Lookahead Bool :=
  loop (fun _ => do
    if ← exhausted then return .done false
    let _ ← skipModifiers
    if !(← skipType) then return .done false
    let _ ← eat .ellipsis
    if !(← eat .identifier) then return .done false
    let _ ← skipDimensions
    if ← eat .comma then return .again () else return .done true) ()

/-- Whether the current token is the keyword of a primitive type. -/
def atPrimitive : Lookahead Bool := do
  match ← currentKind with
  | .keyword keyword => return keyword.isPrimitiveType
  | _ => return false

/-- Passes the type of a cast, which may be an intersection. Says whether it is a
single primitive type. -/
def skipCastType : Lookahead (Option Bool) := do
  if !(← skipAnnotations) then return none
  let primitive ← atPrimitive
  if !(← skipType) then return none
  loop (fun intersection => do
    if ← eat .amp then
      if ← skipType then return .again true else return .done none
    else return .done (some (primitive && !intersection))) false

/-! ### What a parenthesis opens -/

/-- Whether a token can start the operand of a cast to a reference type. A token that
could go on with an infix expression cannot. -/
def startsCastOperand : TokenKind → Bool
  | .identifier | .leftParen | .bang | .tilde => true
  | .keyword .this | .keyword .super | .keyword .new | .keyword .switch | .keyword .void => true
  | .keyword keyword => keyword.isPrimitiveType
  | kind => kind.isLiteral

/-- Whether the group at the current token has an arrow after it. -/
def beforeArrow : Lookahead Bool := do
  if ← skipBalanced then check .arrow else return false

/-- Whether a group before an arrow holds names only. -/
def holdsNames : Lookahead Bool := do
  if ← check .rightParen then return true
  match ← skipIdentifierList with
  | some _ => check .rightParen
  | none => return false

/-- Whether a group holds two names or more. -/
def holdsSeveralNames : Lookahead Bool := do
  match ← skipIdentifierList with
  | some count => if 2 ≤ count then check .rightParen else return false
  | none => return false

/-- Whether a group holds parameters with types. -/
def holdsParameters : Lookahead Bool := do
  if ← skipFormalParameters then check .rightParen else return false

/-- Whether a group holds a type and something that can be cast follows. -/
def isCast : Lookahead Bool := do
  match ← skipCastType with
  | some primitive =>
    if ← eat .rightParen then
      if primitive then return true else return startsCastOperand (← currentKind)
    else return false
  | none => return false

/-- Decides about the group at the current token, inside its parenthesis. -/
def inside (start : Nat) (question : Lookahead Bool) : Lookahead Bool := do
  rewind start
  bump
  question

/-- What the parenthesis at the current token opens. -/
def parenKind : Lookahead ParenKind := do
  let start ← (Parser.position : Parser Nat)
  if ← beforeArrow then
    if ← inside start holdsNames then return .implicitLambda else return .explicitLambda
  if ← inside start holdsSeveralNames then return .implicitLambda
  if ← inside start holdsParameters then return .explicitLambda
  if ← inside start isCast then return .cast
  return .parenthesized

end Lookahead

namespace Parser

/-- The event that notes a decision about a parenthesis. -/
def parenEvent (kind : ParenKind) (offset : Nat) : LogEvent :=
  ((LogEvent.debug "Parenthesis classified").withContext "kind" kind.text).withContext
    "offset" (toString offset)

/-- Decides what the parenthesis at the current token opens. -/
def classifyParen : Parser ParenKind := do
  let offset := (← peek 0).offset
  let kind ← Lookahead.parenKind.run
  if (← get).preferences.logParenClassification then note (parenEvent kind offset)
  return kind

/-- Whether a type and a name come next. -/
def atLocalVariable : Parser Bool := Lookahead.run do
  if ← Lookahead.skipType then Lookahead.check .identifier else return false

/-- Whether the head of a `for` over elements comes next. -/
def atEnhancedFor : Parser Bool := Lookahead.run do
  let _ ← Lookahead.skipModifiers
  if ← Lookahead.skipType then Lookahead.checkPair .identifier .colon else return false

/-- Whether a pattern comes next and no constant. -/
def atPattern : Parser Bool := Lookahead.run do
  if ← Lookahead.skipModifiers then return true
  if ← Lookahead.skipType then
    let next ← Lookahead.currentKind
    return next == .identifier || next == .leftParen
  else return false

/-- What comes next, if it is an expression that starts with a generic type or an
array type. -/
def typePrimary? : Parser (Option TypePrimary) := Lookahead.run do
  if !(← Lookahead.skipType) then return none
  let s ← get
  if !(s.sawTypeArguments || s.sawDimensions) then return none
  let first ← Lookahead.kindAt 0
  let second ← Lookahead.kindAt 1
  if first = .colonColon then return some .methodReference
  if first = .dot ∧ second = .keyword .class ∧ s.sawDimensions then return some .classLiteral
  return none

/-- The tokens after which `yield` is the name of a variable or a method. -/
def continuesName : TokenKind → Bool
  | .dot | .leftBracket | .colonColon | .arrow | .semicolon => true
  | kind => kind.isAssignmentOperator

/-- Whether `yield` comes next and starts a statement. -/
def atYield : Parser Bool := do
  if ← checkWord "yield" then
    let next ← peekKind 1
    if next = .plusPlus ∨ next = .minusMinus then return (← peekKind 2) != .semicolon
    return !continuesName next
  else return false

end Parser

end JavaSyntax
