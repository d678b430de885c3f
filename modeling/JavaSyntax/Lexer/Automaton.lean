import JavaSyntax.Lexer.CharClass
import JavaSyntax.Token.Basic

/-!
# The lexical automaton

A finite automaton that reads one lexeme. From the initial state and from each
state inside a lexeme, the class of the next character decides an action: take
the character and go on, end the lexeme before it, end the lexeme after it, or
fail. Lexemes are as long as they can be.
-/

namespace JavaSyntax

/-- Where the automaton stands inside a lexeme. -/
inductive LexState where
  | identifier
  | space | carriageReturn
  | slash | lineComment | blockComment | blockCommentStar
  | zero | octal | decimal | hexMark | hex | hexFraction | binaryMark | binary
  | dot | twoDots | fraction | exponentMark | exponentSign | exponent
  | stringOpen | stringEmpty | string | stringEscape
  | textBlockOpen | textBlock | textBlockQuote | textBlockTwoQuotes | textBlockEscape
  | charOpen | char | charEscape
  | plus | minus | star | percent | caret | bang | equals | amp | pipe
  | less | shiftLeft | greater | shiftRight | unsignedShiftRight | colon
deriving DecidableEq, Repr

/-- Why no lexeme can be read. -/
inductive LexFault where
  | invalidCharacter | invalidNumber | unterminatedString | unterminatedChar
  | unterminatedTextBlock | unterminatedComment | invalidCharLiteral
  | invalidTextBlockOpening | unexpectedEnd
deriving DecidableEq, Repr

/-- What a finished lexeme is: a token, or something that stands between tokens. -/
inductive LexemeKind where
  | token (kind : TokenKind)
  | affiliation (style : AffiliationStyle)
deriving DecidableEq, Repr

/-- What to do about the next character. -/
inductive LexAction where
  /-- Take the character and go on. -/
  | shift (next : LexState)
  /-- End the lexeme before the character. -/
  | stop (kind : LexemeKind)
  /-- Take the character, then end the lexeme. -/
  | take (kind : LexemeKind)
  | fail (fault : LexFault)
deriving DecidableEq, Repr

namespace LexAction

/-- End a token before the next character. -/
abbrev before (kind : TokenKind) : LexAction := .stop (.token kind)

/-- Take the character and end a token. -/
abbrev after (kind : TokenKind) : LexAction := .take (.token kind)

/-- End an affiliation before the next character. -/
abbrev affiliationBefore (style : AffiliationStyle) : LexAction := .stop (.affiliation style)

/-- Take the character and end an affiliation. -/
abbrev affiliationAfter (style : AffiliationStyle) : LexAction := .take (.affiliation style)

/-- Whether an action would take the character that it is for. -/
def takes : LexAction → Bool
  | .shift _ | .take _ => true
  | .stop _ | .fail _ => false

end LexAction

namespace LexState

open LexAction

/-- The action for the first character of a lexeme. -/
def first : CharClass → LexAction
  | .zero => .shift zero
  | .octalDigit | .digit89 => .shift decimal
  | .space => .shift space
  | .newline => .affiliationAfter .newline
  | .carriageReturn => .shift carriageReturn
  | .slash => .shift slash
  | .dot => .shift dot
  | .quote => .shift stringOpen
  | .apostrophe => .shift charOpen
  | .leftParen => .after .leftParen
  | .rightParen => .after .rightParen
  | .leftBrace => .after .leftBrace
  | .rightBrace => .after .rightBrace
  | .leftBracket => .after .leftBracket
  | .rightBracket => .after .rightBracket
  | .semicolon => .after .semicolon
  | .comma => .after .comma
  | .at => .after .at
  | .tilde => .after .tilde
  | .question => .after .question
  | .colon => .shift colon
  | .plus => .shift plus
  | .minus => .shift minus
  | .star => .shift star
  | .percent => .shift percent
  | .caret => .shift caret
  | .bang => .shift bang
  | .equals => .shift equals
  | .amp => .shift amp
  | .pipe => .shift pipe
  | .less => .shift less
  | .greater => .shift greater
  | c => if c.startsIdentifier then .shift identifier else .fail .invalidCharacter

/-- A number that ends before the next character, unless that character would be
glued to it as part of an identifier. -/
def endNumber (kind : TokenKind) (c : CharClass) : LexAction :=
  if c.continuesIdentifier then .fail .invalidNumber else .before kind

/-- The digits of a decimal or octal number, what may follow them, and the
suffixes. Which digits an octal number admits is checked when it is decoded. -/
def digits (self : LexState) : CharClass → LexAction
  | .zero | .octalDigit | .digit89 | .underscore => .shift self
  | .dot => .shift fraction
  | .letterE => .shift exponentMark
  | .letterL => .after .longLiteral
  | .letterF => .after .floatLiteral
  | .letterD => .after .doubleLiteral
  | c => endNumber .intLiteral c

/-- The suffixes and the end of a number that has a fraction or an exponent. -/
def endFloating : CharClass → LexAction
  | .letterF => .after .floatLiteral
  | .letterD => .after .doubleLiteral
  | c => endNumber .doubleLiteral c

/-- An operator that a following `=` extends. -/
def extendable (alone withEquals : TokenKind) : CharClass → LexAction
  | .equals => .after withEquals
  | _ => .before alone

/-- The action for a further character of a lexeme. -/
def next : LexState → CharClass → LexAction
  | identifier, c => if c.continuesIdentifier then .shift identifier else .before .identifier
  | space, .space => .shift space
  | space, _ => .affiliationBefore .space
  | carriageReturn, .newline => .affiliationAfter .newline
  | carriageReturn, _ => .affiliationBefore .newline
  | slash, .slash => .shift lineComment
  | slash, .star => .shift blockComment
  | slash, .equals => .after .slashAssign
  | slash, _ => .before .slash
  | lineComment, .newline | lineComment, .carriageReturn | lineComment, .endOfText =>
    .affiliationBefore .lineComment
  | lineComment, _ => .shift lineComment
  | blockComment, .star => .shift blockCommentStar
  | blockComment, .endOfText => .fail .unterminatedComment
  | blockComment, _ => .shift blockComment
  | blockCommentStar, .star => .shift blockCommentStar
  | blockCommentStar, .slash => .affiliationAfter .blockComment
  | blockCommentStar, .endOfText => .fail .unterminatedComment
  | blockCommentStar, _ => .shift blockComment
  | zero, .letterX => .shift hexMark
  | zero, .letterB => .shift binaryMark
  | zero, c => digits octal c
  | octal, c => digits octal c
  | decimal, c => digits decimal c
  | hexMark, .dot => .shift hexFraction
  | hexMark, c => if c.isHexDigit then .shift hex else .fail .invalidNumber
  | hex, .underscore => .shift hex
  | hex, .letterL => .after .longLiteral
  | hex, .letterP => .shift exponentMark
  | hex, .dot => .shift hexFraction
  | hex, c => if c.isHexDigit then .shift hex else endNumber .intLiteral c
  | hexFraction, .underscore => .shift hexFraction
  | hexFraction, .letterP => .shift exponentMark
  | hexFraction, c => if c.isHexDigit then .shift hexFraction else .fail .invalidNumber
  | binaryMark, c => if c.isDigit then .shift binary else .fail .invalidNumber
  | binary, .underscore => .shift binary
  | binary, .letterL => .after .longLiteral
  | binary, c => if c.isDigit then .shift binary else endNumber .intLiteral c
  | dot, .dot => .shift twoDots
  | dot, c => if c.isDigit then .shift fraction else .before .dot
  | twoDots, .dot => .after .ellipsis
  | twoDots, _ => .fail .invalidCharacter
  | fraction, .underscore => .shift fraction
  | fraction, .letterE => .shift exponentMark
  | fraction, c => if c.isDigit then .shift fraction else endFloating c
  | exponentMark, .plus | exponentMark, .minus => .shift exponentSign
  | exponentMark, c => if c.isDigit then .shift exponent else .fail .invalidNumber
  | exponentSign, c => if c.isDigit then .shift exponent else .fail .invalidNumber
  | exponent, .underscore => .shift exponent
  | exponent, c => if c.isDigit then .shift exponent else endFloating c
  | stringOpen, .quote => .shift stringEmpty
  | stringOpen, .backslash => .shift stringEscape
  | stringOpen, .newline | stringOpen, .carriageReturn | stringOpen, .endOfText =>
    .fail .unterminatedString
  | stringOpen, _ => .shift string
  | stringEmpty, .quote => .shift textBlockOpen
  | stringEmpty, _ => .before .stringLiteral
  | string, .quote => .after .stringLiteral
  | string, .backslash => .shift stringEscape
  | string, .newline | string, .carriageReturn | string, .endOfText => .fail .unterminatedString
  | string, _ => .shift string
  | stringEscape, .newline | stringEscape, .carriageReturn | stringEscape, .endOfText =>
    .fail .unterminatedString
  | stringEscape, _ => .shift string
  | textBlockOpen, .space => .shift textBlockOpen
  | textBlockOpen, .newline | textBlockOpen, .carriageReturn => .shift textBlock
  | textBlockOpen, .endOfText => .fail .unterminatedTextBlock
  | textBlockOpen, _ => .fail .invalidTextBlockOpening
  | textBlock, .quote => .shift textBlockQuote
  | textBlock, .backslash => .shift textBlockEscape
  | textBlock, .endOfText => .fail .unterminatedTextBlock
  | textBlock, _ => .shift textBlock
  | textBlockQuote, .quote => .shift textBlockTwoQuotes
  | textBlockQuote, .backslash => .shift textBlockEscape
  | textBlockQuote, .endOfText => .fail .unterminatedTextBlock
  | textBlockQuote, _ => .shift textBlock
  | textBlockTwoQuotes, .quote => .after .textBlock
  | textBlockTwoQuotes, .backslash => .shift textBlockEscape
  | textBlockTwoQuotes, .endOfText => .fail .unterminatedTextBlock
  | textBlockTwoQuotes, _ => .shift textBlock
  | textBlockEscape, .endOfText => .fail .unterminatedTextBlock
  | textBlockEscape, _ => .shift textBlock
  | charOpen, .apostrophe => .fail .invalidCharLiteral
  | charOpen, .backslash => .shift charEscape
  | charOpen, .newline | charOpen, .carriageReturn | charOpen, .endOfText =>
    .fail .unterminatedChar
  | charOpen, _ => .shift char
  | char, .apostrophe => .after .charLiteral
  | char, .backslash => .shift charEscape
  | char, .newline | char, .carriageReturn | char, .endOfText => .fail .unterminatedChar
  | char, _ => .shift char
  | charEscape, .newline | charEscape, .carriageReturn | charEscape, .endOfText =>
    .fail .unterminatedChar
  | charEscape, _ => .shift char
  | plus, .plus => .after .plusPlus
  | plus, c => extendable .plus .plusAssign c
  | minus, .minus => .after .minusMinus
  | minus, .greater => .after .arrow
  | minus, c => extendable .minus .minusAssign c
  | star, c => extendable .star .starAssign c
  | percent, c => extendable .percent .percentAssign c
  | caret, c => extendable .caret .caretAssign c
  | bang, c => extendable .bang .notEqual c
  | equals, c => extendable .assign .equal c
  | amp, .amp => .after .andAnd
  | amp, c => extendable .amp .ampAssign c
  | pipe, .pipe => .after .orOr
  | pipe, c => extendable .pipe .pipeAssign c
  | less, .less => .shift shiftLeft
  | less, c => extendable .less .lessEqual c
  | shiftLeft, c => extendable .shiftLeft .shiftLeftAssign c
  | greater, .greater => .shift shiftRight
  | greater, c => extendable .greater .greaterEqual c
  | shiftRight, .greater => .shift unsignedShiftRight
  | shiftRight, c => extendable .shiftRight .shiftRightAssign c
  | unsignedShiftRight, c => extendable .unsignedShiftRight .unsignedShiftRightAssign c
  | colon, .colon => .after .colonColon
  | colon, _ => .before .colon

/-- No state takes the end of the text as a character. -/
theorem takes_next_endOfText (s : LexState) : (s.next .endOfText).takes = false := by
  cases s <;> rfl

end LexState

end JavaSyntax
