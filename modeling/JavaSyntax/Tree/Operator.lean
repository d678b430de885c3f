import JavaSyntax.Token.Kind

/-!
# Operators and kinds of literals

The operators of Java expressions with the tokens that write them, and the binding
power of the binary ones.
-/

namespace JavaSyntax

/-- The types of literals. -/
inductive LiteralKind where
  | int | long | float | double | char | string | textBlock | boolean | null
deriving DecidableEq, Repr

namespace LiteralKind

def name : LiteralKind → String
  | .int => "Int"
  | .long => "Long"
  | .float => "Float"
  | .double => "Double"
  | .char => "Char"
  | .string => "String"
  | .textBlock => "TextBlock"
  | .boolean => "Boolean"
  | .null => "Null"

/-- The type of a literal token. -/
def ofToken? : TokenKind → Option LiteralKind
  | .intLiteral => some .int
  | .longLiteral => some .long
  | .floatLiteral => some .float
  | .doubleLiteral => some .double
  | .charLiteral => some .char
  | .stringLiteral => some .string
  | .textBlock => some .textBlock
  | .trueLiteral | .falseLiteral => some .boolean
  | .nullLiteral => some .null
  | _ => none

end LiteralKind

/-- The operators with one operand. -/
inductive UnaryOperator where
  | plus | minus | not | bitwiseNot | preIncrement | preDecrement | postIncrement | postDecrement
deriving DecidableEq, Repr

namespace UnaryOperator

def name : UnaryOperator → String
  | .plus => "Plus"
  | .minus => "Minus"
  | .not => "Not"
  | .bitwiseNot => "BitwiseNot"
  | .preIncrement => "PreIncrement"
  | .preDecrement => "PreDecrement"
  | .postIncrement => "PostIncrement"
  | .postDecrement => "PostDecrement"

/-- The operator that a token before an operand writes. -/
def beforeOperand? : TokenKind → Option UnaryOperator
  | .plus => some .plus
  | .minus => some .minus
  | .bang => some .not
  | .tilde => some .bitwiseNot
  | .plusPlus => some .preIncrement
  | .minusMinus => some .preDecrement
  | _ => none

/-- The operator that a token after an operand writes. -/
def afterOperand? : TokenKind → Option UnaryOperator
  | .plusPlus => some .postIncrement
  | .minusMinus => some .postDecrement
  | _ => none

def symbol : UnaryOperator → String
  | .plus => "+"
  | .minus => "-"
  | .not => "!"
  | .bitwiseNot => "~"
  | .preIncrement | .postIncrement => "++"
  | .preDecrement | .postDecrement => "--"

/-- Whether the operator stands after its operand. -/
def isPostfix : UnaryOperator → Bool
  | .postIncrement | .postDecrement => true
  | _ => false

end UnaryOperator

/-- The operators with two operands that only compute. -/
inductive BinaryOperator where
  | or | and | bitOr | bitXor | bitAnd | equal | notEqual | less | greater | lessEqual
  | greaterEqual | shiftLeft | shiftRight | unsignedShiftRight | add | subtract | multiply
  | divide | remainder
deriving DecidableEq, Repr

/-- The binding power of `instanceof`, which it shares with the comparisons. -/
def instanceOfPrecedence : Nat := 7

namespace BinaryOperator

def name : BinaryOperator → String
  | .or => "Or"
  | .and => "And"
  | .bitOr => "BitOr"
  | .bitXor => "BitXor"
  | .bitAnd => "BitAnd"
  | .equal => "Equal"
  | .notEqual => "NotEqual"
  | .less => "Less"
  | .greater => "Greater"
  | .lessEqual => "LessEqual"
  | .greaterEqual => "GreaterEqual"
  | .shiftLeft => "ShiftLeft"
  | .shiftRight => "ShiftRight"
  | .unsignedShiftRight => "UnsignedShiftRight"
  | .add => "Add"
  | .subtract => "Subtract"
  | .multiply => "Multiply"
  | .divide => "Divide"
  | .remainder => "Remainder"

/-- The operator that a token between operands writes. -/
def ofToken? : TokenKind → Option BinaryOperator
  | .orOr => some .or
  | .andAnd => some .and
  | .pipe => some .bitOr
  | .caret => some .bitXor
  | .amp => some .bitAnd
  | .equal => some .equal
  | .notEqual => some .notEqual
  | .less => some .less
  | .greater => some .greater
  | .lessEqual => some .lessEqual
  | .greaterEqual => some .greaterEqual
  | .shiftLeft => some .shiftLeft
  | .shiftRight => some .shiftRight
  | .unsignedShiftRight => some .unsignedShiftRight
  | .plus => some .add
  | .minus => some .subtract
  | .star => some .multiply
  | .slash => some .divide
  | .percent => some .remainder
  | _ => none

/-- The binding power; a higher one binds tighter. All these operators group to
the left. -/
def precedence : BinaryOperator → Nat
  | .or => 1
  | .and => 2
  | .bitOr => 3
  | .bitXor => 4
  | .bitAnd => 5
  | .equal | .notEqual => 6
  | .less | .greater | .lessEqual | .greaterEqual => instanceOfPrecedence
  | .shiftLeft | .shiftRight | .unsignedShiftRight => 8
  | .add | .subtract => 9
  | .multiply | .divide | .remainder => 10

def symbol : BinaryOperator → String
  | .or => "||"
  | .and => "&&"
  | .bitOr => "|"
  | .bitXor => "^"
  | .bitAnd => "&"
  | .equal => "=="
  | .notEqual => "!="
  | .less => "<"
  | .greater => ">"
  | .lessEqual => "<="
  | .greaterEqual => ">="
  | .shiftLeft => "<<"
  | .shiftRight => ">>"
  | .unsignedShiftRight => ">>>"
  | .add => "+"
  | .subtract => "-"
  | .multiply => "*"
  | .divide => "/"
  | .remainder => "%"

end BinaryOperator

/-- The operators that assign, plainly or after an operation. -/
inductive AssignmentOperator where
  | assign | add | subtract | multiply | divide | remainder | bitAnd | bitOr | bitXor | shiftLeft
  | shiftRight | unsignedShiftRight
deriving DecidableEq, Repr

namespace AssignmentOperator

def name : AssignmentOperator → String
  | .assign => "Assign"
  | .add => "Add"
  | .subtract => "Subtract"
  | .multiply => "Multiply"
  | .divide => "Divide"
  | .remainder => "Remainder"
  | .bitAnd => "BitAnd"
  | .bitOr => "BitOr"
  | .bitXor => "BitXor"
  | .shiftLeft => "ShiftLeft"
  | .shiftRight => "ShiftRight"
  | .unsignedShiftRight => "UnsignedShiftRight"

/-- The operator that a token writes. -/
def ofToken? : TokenKind → Option AssignmentOperator
  | .assign => some .assign
  | .plusAssign => some .add
  | .minusAssign => some .subtract
  | .starAssign => some .multiply
  | .slashAssign => some .divide
  | .percentAssign => some .remainder
  | .ampAssign => some .bitAnd
  | .pipeAssign => some .bitOr
  | .caretAssign => some .bitXor
  | .shiftLeftAssign => some .shiftLeft
  | .shiftRightAssign => some .shiftRight
  | .unsignedShiftRightAssign => some .unsignedShiftRight
  | _ => none

def symbol : AssignmentOperator → String
  | .assign => "="
  | .add => "+="
  | .subtract => "-="
  | .multiply => "*="
  | .divide => "/="
  | .remainder => "%="
  | .bitAnd => "&="
  | .bitOr => "|="
  | .bitXor => "^="
  | .shiftLeft => "<<="
  | .shiftRight => ">>="
  | .unsignedShiftRight => ">>>="

end AssignmentOperator

/-- The primitive types. -/
inductive PrimitiveType where
  | boolean | byte | char | short | int | long | float | double
deriving DecidableEq, Repr

namespace PrimitiveType

def name : PrimitiveType → String
  | .boolean => "Boolean"
  | .byte => "Byte"
  | .char => "Char"
  | .short => "Short"
  | .int => "Int"
  | .long => "Long"
  | .float => "Float"
  | .double => "Double"

/-- The type that a keyword names. -/
def ofKeyword? : Keyword → Option PrimitiveType
  | .boolean => some .boolean
  | .byte => some .byte
  | .char => some .char
  | .short => some .short
  | .int => some .int
  | .long => some .long
  | .float => some .float
  | .double => some .double
  | _ => none

def text : PrimitiveType → String
  | .boolean => "boolean"
  | .byte => "byte"
  | .char => "char"
  | .short => "short"
  | .int => "int"
  | .long => "long"
  | .float => "float"
  | .double => "double"

end PrimitiveType

end JavaSyntax
