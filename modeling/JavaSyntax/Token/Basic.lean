import JavaSyntax.Diagnostics.Code
import JavaSyntax.Text.Span
import JavaSyntax.Token.Kind

/-!
# Tokens

A token owns its own text and the white space and comments before it, so the
full texts of a list of tokens put together give back the text they came from.
-/

namespace JavaSyntax

/-- What stands between tokens. -/
inductive AffiliationStyle where
  | space | newline | lineComment | blockComment | docComment
deriving DecidableEq, Repr

namespace AffiliationStyle

def name : AffiliationStyle → String
  | space => "Space"
  | newline => "Newline"
  | lineComment => "LineComment"
  | blockComment => "BlockComment"
  | docComment => "DocComment"

def isComment : AffiliationStyle → Bool
  | lineComment | blockComment | docComment => true
  | _ => false

end AffiliationStyle

/-- A run of white space or a comment that belongs to the token after it. -/
structure Affiliation where
  style : AffiliationStyle
  text : String
  span : Span
deriving DecidableEq, Repr

/-- The base in which an integer literal is written. -/
inductive Radix where
  | binary | octal | decimal | hexadecimal
deriving DecidableEq, Repr

namespace Radix

def name : Radix → String
  | binary => "Binary"
  | octal => "Octal"
  | decimal => "Decimal"
  | hexadecimal => "Hexadecimal"

def base : Radix → Nat
  | binary => 2
  | octal => 8
  | decimal => 10
  | hexadecimal => 16

end Radix

/-- What a literal denotes. An `int` is held as the signed number that its 32
bits mean. -/
inductive LiteralValue where
  | integer (value : Int) (radix : Radix)
  | floating (value : Float)
  | char (value : Char)
  | string (value : String)
  | bool (value : Bool)
deriving Repr

/-- A token with the white space and comments before it. -/
structure Token where
  kind : TokenKind
  span : Span
  affiliations : List Affiliation
  source : String
  value : Option LiteralValue
deriving Repr

/-- The complaint of a token that was asked for a value it does not carry. -/
structure MissingValue where
  kind : TokenKind
  text : String
  requested : String
deriving DecidableEq, Repr

namespace MissingValue

def code (_ : MissingValue) : Code := .noDecodedValue

def message (e : MissingValue) : String :=
  s!"Token '{e.text}' ({e.kind.describe}) carries no {e.requested} value"

end MissingValue

namespace Token

/-- The byte offset of the token's own text. -/
def offset (t : Token) : Nat := t.span.start.offset

/-- The affiliations' texts and the token's own, in order. -/
def fullText (t : Token) : String := String.join (t.affiliations.map (·.text)) ++ t.source

def isKeyword (t : Token) : Bool := t.kind.isKeyword

def isLiteral (t : Token) : Bool := t.kind.isLiteral

def isOperator (t : Token) : Bool := t.kind.isOperator

def isEnd (t : Token) : Bool := t.kind == .endOfInput

def hasComment (t : Token) : Bool := t.affiliations.any (·.style.isComment)

/-- Whether the token is an identifier spelt like this. -/
def isWord (t : Token) (word : String) : Bool := t.kind == .identifier && t.source == word

/-- What a reader sees of the token. -/
def display (t : Token) : String := if t.isEnd then "<EOF>" else t.source

/-- The complaint that the token has no value of the requested sort. -/
def missing (t : Token) (requested : String) : MissingValue := ⟨t.kind, t.source, requested⟩

def intValue (t : Token) : Except MissingValue Int :=
  match t.value with
  | some (.integer value _) => .ok value
  | _ => .error (t.missing "integer")

def radix (t : Token) : Except MissingValue Radix :=
  match t.value with
  | some (.integer _ radix) => .ok radix
  | _ => .error (t.missing "radix")

def floatValue (t : Token) : Except MissingValue Float :=
  match t.value with
  | some (.floating value) => .ok value
  | _ => .error (t.missing "floating-point")

def charValue (t : Token) : Except MissingValue Char :=
  match t.value with
  | some (.char value) => .ok value
  | _ => .error (t.missing "char")

def stringValue (t : Token) : Except MissingValue String :=
  match t.value with
  | some (.string value) => .ok value
  | _ => .error (t.missing "string")

def boolValue (t : Token) : Except MissingValue Bool :=
  match t.value with
  | some (.bool value) => .ok value
  | _ => .error (t.missing "boolean")

end Token

/-- The text that a list of tokens was read from. -/
def reconstruct (tokens : List Token) : String := String.join (tokens.map (·.fullText))

end JavaSyntax
