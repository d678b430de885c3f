import JavaSyntax.Lexer.Literal.Escape
import JavaSyntax.Lexer.Literal.Floating
import JavaSyntax.Lexer.Literal.Integer
import JavaSyntax.Lexer.Literal.TextBlock

/-!
# Values of literals

The lexer has fixed the kind of a literal from its first and last characters. What
is left is to check digits, ranges and escapes, and to find the value.
-/

namespace JavaSyntax.Literal

/-- The value of a string between its quotes. -/
def decodeString (text : List Char) : Except LiteralFault (List Char) := do
  let body ← undelimited 1 text
  (Escape.decode false body).mapError fun offset => .invalidEscape (offset + 1)

/-- The value of a character literal: one character that is a single UTF-16 unit. -/
def decodeChar (text : List Char) : Except LiteralFault Char := do
  match ← decodeString text with
  | [c] => if c.toNat ≤ 0xffff then return c else throw .invalidCharLiteral
  | _ => throw .invalidCharLiteral

/-- The value of a text block between its quotes. -/
def decodeTextBlock (text : List Char) : Except LiteralFault (List Char) := do
  let inner ← undelimited 3 text
  (TextBlock.decode inner).mapError fun offset => .invalidEscape (offset + 3)

/-- The value of a floating-point literal. -/
def decodeFloating (width : FloatWidth) (text : List Char) : Except LiteralFault LiteralValue :=
  match Floating.decode width text with
  | .ok value => .ok (.floating value)
  | .error fault => .error (.invalidNumber fault)

/-- The value of a token's text, for the kinds whose tokens carry one. -/
def decode (kind : TokenKind) (text : List Char) : Except LiteralFault (Option LiteralValue) :=
  match kind with
  | .intLiteral => some <$> decodeInteger .int text
  | .longLiteral => some <$> decodeInteger .long text
  | .floatLiteral => some <$> decodeFloating .single text
  | .doubleLiteral => some <$> decodeFloating .double text
  | .charLiteral => return some (.char (← decodeChar text))
  | .stringLiteral => return some (.string (String.ofList (← decodeString text)))
  | .textBlock => return some (.string (String.ofList (← decodeTextBlock text)))
  | .trueLiteral => return some (.bool true)
  | .falseLiteral => return some (.bool false)
  | _ => return none

end JavaSyntax.Literal
