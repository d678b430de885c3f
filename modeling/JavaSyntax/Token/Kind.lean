import JavaSyntax.Token.Keyword

/-!
# Kinds of tokens

The kinds that the lexer gives to tokens, with the fixed spelling of those that
have one, the phrase that names a kind in messages, and the groups of kinds that
metrics and the grammar ask for. A word written like an identifier is a keyword, a
literal word, or an identifier. Some identifiers still mean something to the grammar in
places, and some of those may not name a type.
-/

namespace JavaSyntax

/-- The kind of a token: words, literals, separators, operators, and the end of
the text. Contextual keywords such as `record` are identifiers. -/
inductive TokenKind where
  | identifier
  | keyword (word : Keyword)
  | intLiteral | longLiteral | floatLiteral | doubleLiteral | charLiteral | stringLiteral
  | textBlock | trueLiteral | falseLiteral | nullLiteral
  | leftParen | rightParen | leftBrace | rightBrace | leftBracket | rightBracket | semicolon
  | comma | dot | ellipsis | at | colonColon
  | assign | greater | less | bang | tilde | question | colon | arrow | equal | lessEqual
  | greaterEqual | notEqual | andAnd | orOr | plusPlus | minusMinus | plus | minus | star | slash
  | amp | pipe | caret | percent | shiftLeft | shiftRight | unsignedShiftRight | plusAssign
  | minusAssign | starAssign | slashAssign | ampAssign | pipeAssign | caretAssign | percentAssign
  | shiftLeftAssign | shiftRightAssign | unsignedShiftRightAssign
  | endOfInput
deriving DecidableEq, Repr

namespace TokenKind

/-- The name of a kind in dumps, without the word of a keyword. -/
def name : TokenKind → String
  | .identifier => "Identifier"
  | .keyword _ => "Keyword"
  | .intLiteral => "IntLiteral"
  | .longLiteral => "LongLiteral"
  | .floatLiteral => "FloatLiteral"
  | .doubleLiteral => "DoubleLiteral"
  | .charLiteral => "CharLiteral"
  | .stringLiteral => "StringLiteral"
  | .textBlock => "TextBlock"
  | .trueLiteral => "True"
  | .falseLiteral => "False"
  | .nullLiteral => "Null"
  | .leftParen => "LParen"
  | .rightParen => "RParen"
  | .leftBrace => "LBrace"
  | .rightBrace => "RBrace"
  | .leftBracket => "LBracket"
  | .rightBracket => "RBracket"
  | .semicolon => "Semicolon"
  | .comma => "Comma"
  | .dot => "Dot"
  | .ellipsis => "Ellipsis"
  | .at => "At"
  | .colonColon => "ColonColon"
  | .assign => "Assign"
  | .greater => "Gt"
  | .less => "Lt"
  | .bang => "Bang"
  | .tilde => "Tilde"
  | .question => "Question"
  | .colon => "Colon"
  | .arrow => "Arrow"
  | .equal => "EqEq"
  | .lessEqual => "LtEq"
  | .greaterEqual => "GtEq"
  | .notEqual => "NotEq"
  | .andAnd => "AndAnd"
  | .orOr => "OrOr"
  | .plusPlus => "PlusPlus"
  | .minusMinus => "MinusMinus"
  | .plus => "Plus"
  | .minus => "Minus"
  | .star => "Star"
  | .slash => "Slash"
  | .amp => "Amp"
  | .pipe => "Pipe"
  | .caret => "Caret"
  | .percent => "Percent"
  | .shiftLeft => "Shl"
  | .shiftRight => "Shr"
  | .unsignedShiftRight => "UShr"
  | .plusAssign => "PlusEq"
  | .minusAssign => "MinusEq"
  | .starAssign => "StarEq"
  | .slashAssign => "SlashEq"
  | .ampAssign => "AmpEq"
  | .pipeAssign => "PipeEq"
  | .caretAssign => "CaretEq"
  | .percentAssign => "PercentEq"
  | .shiftLeftAssign => "ShlEq"
  | .shiftRightAssign => "ShrEq"
  | .unsignedShiftRightAssign => "UShrEq"
  | .endOfInput => "Eof"

/-- The spelling of the kinds that have only one. -/
def symbol? : TokenKind → Option String
  | .keyword word => some word.text
  | .trueLiteral => some "true"
  | .falseLiteral => some "false"
  | .nullLiteral => some "null"
  | .leftParen => some "("
  | .rightParen => some ")"
  | .leftBrace => some "\x7b"
  | .rightBrace => some "\x7d"
  | .leftBracket => some "["
  | .rightBracket => some "]"
  | .semicolon => some ";"
  | .comma => some ","
  | .dot => some "."
  | .ellipsis => some "..."
  | .at => some "@"
  | .colonColon => some "::"
  | .assign => some "="
  | .greater => some ">"
  | .less => some "<"
  | .bang => some "!"
  | .tilde => some "~"
  | .question => some "?"
  | .colon => some ":"
  | .arrow => some "->"
  | .equal => some "=="
  | .lessEqual => some "<="
  | .greaterEqual => some ">="
  | .notEqual => some "!="
  | .andAnd => some "&&"
  | .orOr => some "||"
  | .plusPlus => some "++"
  | .minusMinus => some "--"
  | .plus => some "+"
  | .minus => some "-"
  | .star => some "*"
  | .slash => some "/"
  | .amp => some "&"
  | .pipe => some "|"
  | .caret => some "^"
  | .percent => some "%"
  | .shiftLeft => some "<<"
  | .shiftRight => some ">>"
  | .unsignedShiftRight => some ">>>"
  | .plusAssign => some "+="
  | .minusAssign => some "-="
  | .starAssign => some "*="
  | .slashAssign => some "/="
  | .ampAssign => some "&="
  | .pipeAssign => some "|="
  | .caretAssign => some "^="
  | .percentAssign => some "%="
  | .shiftLeftAssign => some "<<="
  | .shiftRightAssign => some ">>="
  | .unsignedShiftRightAssign => some ">>>="
  | _ => none

/-- The phrase for a kind in messages: its spelling in quotes if it has one. -/
def describe : TokenKind → String
  | .identifier => "identifier"
  | .intLiteral => "int literal"
  | .longLiteral => "long literal"
  | .floatLiteral => "float literal"
  | .doubleLiteral => "double literal"
  | .charLiteral => "char literal"
  | .stringLiteral => "string literal"
  | .textBlock => "text block"
  | .endOfInput => "end of input"
  | kind => "'" ++ kind.symbol?.getD "?" ++ "'"

def isKeyword : TokenKind → Bool
  | .keyword _ => true
  | _ => false

/-- Whether a kind is a literal, the words `true`, `false` and `null` included. -/
def isLiteral : TokenKind → Bool
  | .intLiteral | .longLiteral | .floatLiteral | .doubleLiteral | .charLiteral
  | .stringLiteral | .textBlock | .trueLiteral | .falseLiteral | .nullLiteral => true
  | _ => false

/-- Whether a kind assigns, by itself or after an operation. -/
def isAssignmentOperator : TokenKind → Bool
  | .assign | .plusAssign | .minusAssign | .starAssign | .slashAssign | .ampAssign
  | .pipeAssign | .caretAssign | .percentAssign | .shiftLeftAssign | .shiftRightAssign
  | .unsignedShiftRightAssign => true
  | _ => false

/-- Whether a kind is an operator; of the separators only `::` counts as one. -/
def isOperator (kind : TokenKind) : Bool :=
  kind.isAssignmentOperator || match kind with
    | .greater | .less | .bang | .tilde | .question | .colon | .arrow | .equal | .lessEqual
    | .greaterEqual | .notEqual | .andAnd | .orOr | .plusPlus | .minusMinus | .plus
    | .minus | .star | .slash | .amp | .pipe | .caret | .percent | .shiftLeft | .shiftRight
    | .unsignedShiftRight | .colonColon => true
    | _ => false

end TokenKind

/-! ### Words -/

/-- The kind of a word that has the form of an identifier. -/
def classifyWord (word : String) : TokenKind :=
  if word = "true" then .trueLiteral
  else if word = "false" then .falseLiteral
  else if word = "null" then .nullLiteral
  else (Keyword.all.find? (·.text == word)).elim .identifier .keyword

/-- Whether a word can never be an identifier. -/
def isReservedWord (word : String) : Bool := classifyWord word != .identifier

/-- The identifiers that cannot name a type. -/
def restrictedTypeNames : List String := ["permits", "record", "sealed", "var", "yield"]

/-- The identifiers, and one compound, that mean something in parts of the grammar. -/
def contextualKeywords : List String :=
  ["exports", "module", "non-sealed", "open", "opens", "permits", "provides", "record",
    "requires", "sealed", "to", "transitive", "uses", "var", "when", "with", "yield"]

def isRestrictedTypeName (word : String) : Bool := restrictedTypeNames.contains word

def isContextualKeyword (word : String) : Bool := contextualKeywords.contains word

end JavaSyntax
