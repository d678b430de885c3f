import JavaSyntax.Text.IdentifierTable

/-!
# Character classes

The lexer's automaton does not look at characters but at their classes, and the
end of the text has a class of its own. Two characters of one class are the same
to every state.
-/

namespace JavaSyntax

/-- What a character, or the end of the text, is to the automaton. -/
inductive CharClass where
  /-- The end of the text. -/
  | endOfText
  /-- A space, tab or form feed. -/
  | space
  | newline | carriageReturn
  | zero
  /-- A digit from `1` to `7`. -/
  | octalDigit
  /-- The digit `8` or `9`. -/
  | digit89
  /-- A hexadecimal digit without another role: `a` or `c` in either case. -/
  | hexLetter
  | letterB | letterD | letterE | letterF | letterL | letterX | letterP
  /-- Any other character that may start an identifier. -/
  | otherLetter
  /-- A character that may only continue an identifier. -/
  | identifierPart
  | underscore | dollar | dot | quote | apostrophe | backslash | slash | star | plus | minus
  | equals | greater | less | bang | amp | pipe | caret | percent | tilde | question | colon
  | leftParen | rightParen | leftBrace | rightBrace | leftBracket | rightBracket | semicolon
  | comma | at
  | other
deriving DecidableEq, Repr

namespace CharClass

def name : CharClass → String
  | .endOfText => "Eof"
  | .space => "Space"
  | .newline => "Newline"
  | .carriageReturn => "CarriageReturn"
  | .zero => "Zero"
  | .octalDigit => "OctDigit"
  | .digit89 => "Digit89"
  | .hexLetter => "HexLetter"
  | .letterB => "LetterB"
  | .letterD => "LetterD"
  | .letterE => "LetterE"
  | .letterF => "LetterF"
  | .letterL => "LetterL"
  | .letterX => "LetterX"
  | .letterP => "LetterP"
  | .otherLetter => "OtherLetter"
  | .identifierPart => "IdentPart"
  | .underscore => "Underscore"
  | .dollar => "Dollar"
  | .dot => "Dot"
  | .quote => "Quote"
  | .apostrophe => "Apostrophe"
  | .backslash => "Backslash"
  | .slash => "Slash"
  | .star => "Star"
  | .plus => "Plus"
  | .minus => "Minus"
  | .equals => "Eq"
  | .greater => "Gt"
  | .less => "Lt"
  | .bang => "Bang"
  | .amp => "Amp"
  | .pipe => "Pipe"
  | .caret => "Caret"
  | .percent => "Percent"
  | .tilde => "Tilde"
  | .question => "Question"
  | .colon => "Colon"
  | .leftParen => "LParen"
  | .rightParen => "RParen"
  | .leftBrace => "LBrace"
  | .rightBrace => "RBrace"
  | .leftBracket => "LBracket"
  | .rightBracket => "RBracket"
  | .semicolon => "Semicolon"
  | .comma => "Comma"
  | .at => "At"
  | .other => "Other"

/-- The class of an ASCII letter. Those that digits, suffixes, prefixes or
exponents of numbers use have classes of their own, in both cases. -/
def ofAsciiLetter (c : Char) : CharClass :=
  match c.toLower with
  | 'a' | 'c' => .hexLetter
  | 'b' => .letterB
  | 'd' => .letterD
  | 'e' => .letterE
  | 'f' => .letterF
  | 'l' => .letterL
  | 'x' => .letterX
  | 'p' => .letterP
  | _ => .otherLetter

/-- The class of an ASCII character that is no letter. -/
def ofAsciiSymbol : Char → CharClass
  | ' ' | '\t' | '\x0c' => .space
  | '\n' => .newline
  | '\r' => .carriageReturn
  | '0' => .zero
  | '1' | '2' | '3' | '4' | '5' | '6' | '7' => .octalDigit
  | '8' | '9' => .digit89
  | '_' => .underscore
  | '$' => .dollar
  | '.' => .dot
  | '"' => .quote
  | '\'' => .apostrophe
  | '\\' => .backslash
  | '/' => .slash
  | '*' => .star
  | '+' => .plus
  | '-' => .minus
  | '=' => .equals
  | '>' => .greater
  | '<' => .less
  | '!' => .bang
  | '&' => .amp
  | '|' => .pipe
  | '^' => .caret
  | '%' => .percent
  | '~' => .tilde
  | '?' => .question
  | ':' => .colon
  | '(' => .leftParen
  | ')' => .rightParen
  | '{' => .leftBrace
  | '}' => .rightBrace
  | '[' => .leftBracket
  | ']' => .rightBracket
  | ';' => .semicolon
  | ',' => .comma
  | '@' => .at
  | _ => .other

/-- The class of a character beyond ASCII, by what it may do in an identifier. -/
def ofUnicode (c : Char) : CharClass :=
  if IdentifierTable.startRanges.holds c.toNat then .otherLetter
  else if IdentifierTable.partRanges.holds c.toNat then .identifierPart
  else .other

/-- The class of a character. -/
def ofChar (c : Char) : CharClass :=
  if 127 < c.toNat then ofUnicode c
  else if c.isAlpha then ofAsciiLetter c
  else ofAsciiSymbol c

/-- The class of the next character, where there may be none. -/
def ofNext : Option Char → CharClass
  | none => .endOfText
  | some c => ofChar c

/-- A digit of any base up to ten. -/
def isDigit : CharClass → Bool
  | .zero | .octalDigit | .digit89 => true
  | _ => false

/-- A hexadecimal digit. -/
def isHexDigit : CharClass → Bool
  | .hexLetter | .letterB | .letterD | .letterE | .letterF => true
  | c => c.isDigit

/-- A character that an identifier may start with. -/
def startsIdentifier : CharClass → Bool
  | .hexLetter | .letterB | .letterD | .letterE | .letterF | .letterL | .letterX | .letterP
  | .otherLetter | .underscore | .dollar => true
  | _ => false

/-- A character that may stand inside an identifier. -/
def continuesIdentifier (c : CharClass) : Bool :=
  c.startsIdentifier || c.isDigit || c == .identifierPart

end CharClass

end JavaSyntax
