/-!
# Java keywords

The reserved keywords of Java, their spelling, and the two groups that the
grammar asks for: the names of primitive types and the words that may stand in a
list of modifiers.
-/

namespace JavaSyntax

/-- A reserved keyword. The words `true`, `false` and `null` are literals instead. -/
inductive Keyword where
  | abstract | assert | boolean | break | byte | case | catch | char | «class» | const | continue
  | default | do | double | else | enum | extends | final | finally | float | for | goto | if
  | implements | import | instanceof | int | interface | long | native | new | package | «private»
  | «protected» | «public» | return | short | static | strictfp | super | switch | synchronized
  | this | throw | throws | transient | try | void | volatile | while
deriving DecidableEq, Repr

namespace Keyword

/-- The reserved word itself. -/
def text : Keyword → String
  | .abstract => "abstract"
  | .assert => "assert"
  | .boolean => "boolean"
  | .break => "break"
  | .byte => "byte"
  | .case => "case"
  | .catch => "catch"
  | .char => "char"
  | .class => "class"
  | .const => "const"
  | .continue => "continue"
  | .default => "default"
  | .do => "do"
  | .double => "double"
  | .else => "else"
  | .enum => "enum"
  | .extends => "extends"
  | .final => "final"
  | .finally => "finally"
  | .float => "float"
  | .for => "for"
  | .goto => "goto"
  | .if => "if"
  | .implements => "implements"
  | .import => "import"
  | .instanceof => "instanceof"
  | .int => "int"
  | .interface => "interface"
  | .long => "long"
  | .native => "native"
  | .new => "new"
  | .package => "package"
  | .private => "private"
  | .protected => "protected"
  | .public => "public"
  | .return => "return"
  | .short => "short"
  | .static => "static"
  | .strictfp => "strictfp"
  | .super => "super"
  | .switch => "switch"
  | .synchronized => "synchronized"
  | .this => "this"
  | .throw => "throw"
  | .throws => "throws"
  | .transient => "transient"
  | .try => "try"
  | .void => "void"
  | .volatile => "volatile"
  | .while => "while"

/-- The word with a capital letter, which names the keyword in dumps. -/
def name (k : Keyword) : String := k.text.capitalize

/-- Every keyword. -/
def all : List Keyword := [
  .abstract, .assert, .boolean, .break, .byte, .case, .catch, .char, .class, .const, .continue,
  .default, .do, .double, .else, .enum, .extends, .final, .finally, .float, .for, .goto, .if,
  .implements, .import, .instanceof, .int, .interface, .long, .native, .new, .package, .private,
  .protected, .public, .return, .short, .static, .strictfp, .super, .switch, .synchronized,
  .this, .throw, .throws, .transient, .try, .void, .volatile, .while]

/-- Whether a keyword names a primitive type; `void` is none. -/
def isPrimitiveType : Keyword → Bool
  | .boolean | .byte | .char | .short | .int | .long | .float | .double => true
  | _ => false

/-- Whether a keyword may stand in a list of modifiers. -/
def isModifier : Keyword → Bool
  | .public | .protected | .private | .static | .abstract | .final | .native
  | .synchronized | .transient | .volatile | .strictfp | .default => true
  | _ => false

/-- The list of all keywords misses none. -/
theorem mem_all (k : Keyword) : k ∈ all := by cases k <;> decide

end Keyword

end JavaSyntax
