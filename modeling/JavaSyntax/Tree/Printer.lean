import JavaSyntax.Tree.View
import JavaSyntax.Tree.Writer

/-!
# Printing trees

Every tree has a canonical source text, made of its fields alone: comments, blanks
and the way a construct was written are forgotten, the spelling of literals is
kept.
-/

namespace JavaSyntax

/-- What a form is printed as: one change of the writer, or one for each part. -/
@[reducible] def Form.Printed : Form → Type
  | .list f => List f.Printed
  | .option f => Option f.Printed
  | .node f => f.Printed
  | _ => Print

/-- The text of `a.b.c`. -/
def dotted (names : List String) : String := ".".intercalate names

namespace ConstructorCall

def text : ConstructorCall → String
  | .this => "this"
  | .super => "super"

end ConstructorCall

namespace RequiresModifier

def text : RequiresModifier → String
  | .transitive => "transitive"
  | .static => "static"

end RequiresModifier

namespace Tree

open Print

/-- Whether an expression begins with an operator whose symbol begins with this
character. A blank keeps the two operators apart. -/
def startsWithOperator (c : Char) : Tree .expression → Bool
  | .unary operator _ => !operator.isPostfix && operator.symbol.toList.head? == some c
  | _ => false

/-- The blank between an operator and its operand, if one is needed. -/
def operatorGap (operator : UnaryOperator) (operand : Tree .expression) : String :=
  if (operator.symbol.toList.head?).any (startsWithOperator · operand) then " " else ""

/-- Prints the expression before a dot, if there is one. -/
def qualified (qualifier : Option Print) : Print := optional (fun p => all [p, text "."]) qualifier

/-- Prints names that a parameter list without types holds. -/
def implicitNames (names : List String) (inParens : Bool) : Print :=
  match names, inParens with
  | [name], false => text name
  | names, _ => all [text "(", text (", ".intercalate names), text ")"]

/-- Prints dimensions, each after the annotations that come next in order. -/
def annotatedDimensions : List Print → List (List Print) → Print
  | [], _ => id
  | d :: ds, [] => all [d, annotatedDimensions ds []]
  | d :: ds, [] :: rest => all [d, annotatedDimensions ds rest]
  | d :: ds, annotations :: rest =>
    all [text " ", prefixes annotations, d, annotatedDimensions ds rest]

/-- Prints the dimensions of a new array: first those with a size, then the others. -/
def newDimensions (sizes : List Print) (extra : Nat) (annotations : List (List Print)) : Print :=
  annotatedDimensions
    (sizes.map (fun p => all [text "[", p, text "]"]) ++ List.replicate extra (text "[]"))
    annotations

/-- Prints an operator before or after its operand. -/
def operation (operator : UnaryOperator) (gap : String) (operand : Print) : Print :=
  if operator.isPostfix then all [operand, text operator.symbol]
  else all [text operator.symbol, text gap, operand]

/-- Prints the labels and the guard of a case. -/
def caseLabels (isDefault : Bool) (labels : List Print) (guard : Option Print) : Print :=
  if isDefault then text "default"
  else all [text "case ", join ", " labels, optional (fun p => all [text " when ", p]) guard]

/-- Prints the body of a method, or the semicolon in its place. -/
def methodEnd : Option Print → Print
  | some body => all [text " ", body]
  | none => text ";"

/-- Prints the braces and the content of an enum. -/
def enumBody (constants body : List Print) : Print :=
  if constants.isEmpty && body.isEmpty then text "\x7b\x7d"
  else all [Writer.openBrace, separated (all [text ",", Writer.newline]) constants,
    if body.isEmpty then Writer.newline
    else all [text ";", Writer.newline, each (fun p => all [p, Writer.newline]) body],
    Writer.closeBrace]

/-- Prints type parameters with a blank after them, if there are any. -/
def leadingTypeParameters (parameters : List Print) : Print :=
  if parameters.isEmpty then id else all [angles parameters, text " "]

/-- Prints the modules that a package is opened or exported to. -/
def targetModules (modules : List (List String)) : Print :=
  if modules.isEmpty then id
  else all [text " to ", text (", ".intercalate (modules.map dotted))]

/-- Prints the labels and the statements of a group, the statements one step deeper. -/
def caseGroup (labels statements : List Print) : Print :=
  all [separated Writer.newline (labels.map fun p => all [p, text ":"]), Writer.indent,
    each (fun p => all [Writer.newline, p]) statements, Writer.dedent]

/-- Prints the sections of a compilation unit with an empty line between them. The
imports are one section, and each type is one. -/
def sections (package : Option Print) (imports types : List Print) (module : Option Print) :
    Print :=
  let imported := if imports.isEmpty then [] else [separated Writer.newline imports]
  separated (all [Writer.newline, Writer.newline])
    (package.toList ++ imported ++ types ++ module.toList)

/-- How a tree is printed. -/
def print : {f : Form} → Tree f → f.Printed
  | _, .nil => []
  | _, .cons head tail => print head :: print tail
  | _, .absent => none
  | _, .present t => some (print t)
  | .node f, .located t _ _ => print (f := f) t
  -- Expressions
  | _, .literal l => text l.text
  | _, .simpleName name => text name
  | _, .this qualifier => all [qualified (print qualifier), text "this"]
  | _, .super qualifier => all [qualified (print qualifier), text "super"]
  | _, .fieldAccess target name => all [print target, text ".", text name]
  | _, .arrayAccess array index => all [print array, text "[", print index, text "]"]
  | _, .methodCall target typeArguments name arguments =>
    all [qualified (print target), angles (print typeArguments), text name,
      parens (print arguments)]
  | _, .objectCreation outer typeArguments type arguments body =>
    all [qualified (print outer), text "new ", angles (print typeArguments), print type,
      parens (print arguments), optional (fun ps => all [text " ", bracedLines ps]) (print body)]
  | _, .arrayCreation element dimensions extraDimensions annotations initializer =>
    all [text "new ", print element,
      newDimensions (print dimensions) extraDimensions (print annotations),
      optional (fun p => all [text " ", p]) (print initializer)]
  | _, .arrayInitializer elements => all [text "\x7b", join ", " (print elements), text "\x7d"]
  | _, .unary operator operand =>
    operation operator (operatorGap operator operand.inner) (print operand)
  | _, .binary left operator right =>
    all [print left, text " ", text operator.symbol, text " ", print right]
  | _, .assignment target operator value =>
    all [print target, text " ", text operator.symbol, text " ", print value]
  | _, .conditional condition thenValue elseValue =>
    all [print condition, text " ? ", print thenValue, text " : ", print elseValue]
  | _, .instanceOf expression target => all [print expression, text " instanceof ", print target]
  | _, .cast targetType expression => all [text "(", print targetType, text ") ", print expression]
  | _, .lambda parameters body => all [print parameters, text " -> ", print body]
  | _, .methodReference target typeArguments name =>
    all [print target, text "::", angles (print typeArguments), text name]
  | _, .classLiteral type => all [print type, text ".class"]
  | _, .parenthesized expression => all [text "(", print expression, text ")"]
  | _, .switchExpression selector body =>
    all [text "switch (", print selector, text ") ", print body]
  | _, .testType type => (print type : Print)
  | _, .testPattern pattern => (print pattern : Print)
  | _, .implicitParameters names inParens => implicitNames names inParens
  | _, .explicitParameters parameters => parens (print parameters)
  | _, .lambdaExpression expression => (print expression : Print)
  | _, .lambdaBlock body => (print body : Print)
  | _, .expressionTarget expression => (print expression : Print)
  | _, .typeTarget type => (print type : Print)
  -- Switches
  | _, .rules cases => bracedLines (print cases)
  | _, .groups cases => bracedLines (print cases)
  | _, .switchRule label body => all [print label, text " -> ", print body]
  | _, .ruleExpression expression => all [print expression, text ";"]
  | _, .ruleBlock body => (print body : Print)
  | _, .ruleThrow statement => (print statement : Print)
  | _, .switchGroup labels statements => caseGroup (print labels) (print statements)
  | _, .switchLabel labels guard =>
    caseLabels (switchLabel labels guard).isDefault (print labels) (print guard)
  | _, .caseConstant expression => (print expression : Print)
  | _, .casePattern pattern => (print pattern : Print)
  | _, .caseNull => text "null"
  | _, .caseDefault => text "default"
  -- Statements
  | _, .block statements => bracedLines (print statements)
  | _, .blockStatement body => (print body : Print)
  | _, .emptyStatement => text ";"
  | _, .expressionStatement expression => all [print expression, text ";"]
  | _, .localVariable declaration => all [print declaration, text ";"]
  | _, .localClass declaration => (print declaration : Print)
  | _, .ifStatement condition thenBranch elseBranch =>
    all [text "if (", print condition, text ") ", print thenBranch,
      optional (fun p => all [text " else ", p]) (print elseBranch)]
  | _, .whileStatement condition body =>
    all [text "while (", print condition, text ") ", print body]
  | _, .doStatement body condition =>
    all [text "do ", print body, text " while (", print condition, text ");"]
  | _, .forStatement init condition update body =>
    all [text "for (", optional id (print init), text ";",
      optional (fun p => all [text " ", p]) (print condition), text ";",
      list " " ", " "" (print update), text ") ", print body]
  | _, .forEachStatement modifiers type name iterable body =>
    all [text "for (", prefixes (print modifiers), print type, text " ", text name, text " : ",
      print iterable, text ") ", print body]
  | _, .switchStatement selector body =>
    all [text "switch (", print selector, text ") ", print body]
  | _, .returnStatement value =>
    all [text "return", optional (fun p => all [text " ", p]) (print value), text ";"]
  | _, .breakStatement label =>
    all [text "break", optional (fun name => all [text " ", text name]) label, text ";"]
  | _, .continueStatement label =>
    all [text "continue", optional (fun name => all [text " ", text name]) label, text ";"]
  | _, .throwStatement thrown => all [text "throw ", print thrown, text ";"]
  | _, .tryStatement resources body catches finallyBlock =>
    all [text "try", list " (" "; " ")" (print resources), text " ", print body,
      each (fun p => all [text " ", p]) (print catches),
      optional (fun p => all [text " finally ", p]) (print finallyBlock)]
  | _, .synchronizedStatement lock body =>
    all [text "synchronized (", print lock, text ") ", print body]
  | _, .labeledStatement label statement => all [text label, text ": ", print statement]
  | _, .assertStatement condition message =>
    all [text "assert ", print condition, optional (fun p => all [text " : ", p]) (print message),
      text ";"]
  | _, .yieldStatement value => all [text "yield ", print value, text ";"]
  | _, .constructorInvocation qualifier typeArguments kind arguments =>
    all [qualified (print qualifier), angles (print typeArguments), text kind.text,
      parens (print arguments), text ";"]
  | _, .localVariables modifiers type declarators =>
    all [prefixes (print modifiers), print type, text " ", join ", " (print declarators)]
  | _, .forDeclaration declaration => (print declaration : Print)
  | _, .forExpressions expressions => join ", " (print expressions)
  | _, .catchClause modifiers types name body =>
    all [text "catch (", prefixes (print modifiers), join " | " (print types), text " ", text name,
      text ") ", print body]
  | _, .resourceDeclaration modifiers type name initializer =>
    all [prefixes (print modifiers), print type, text " ", text name, text " = ",
      print initializer]
  | _, .resourceExpression expression => (print expression : Print)
  -- Types and patterns
  | _, .primitiveType annotations primitive =>
    all [prefixes (print annotations), text primitive.text]
  | _, .voidType => text "void"
  | _, .classType segments => join "." (print segments)
  | _, .classTypeSegment annotations name typeArguments =>
    all [prefixes (print annotations), text name,
      optional (fun ps => if ps.isEmpty then text "<>" else angles ps) (print typeArguments)]
  | _, .arrayType element dimensions => all [print element, all (print dimensions)]
  | _, .dimension annotations =>
    all [list " " " " " " (print annotations), text "[]"]
  | _, .wildcardType annotations bound =>
    all [prefixes (print annotations), text "?", optional id (print bound)]
  | _, .extendsBound type => all [text " extends ", print type]
  | _, .superBound type => all [text " super ", print type]
  | _, .intersectionType bounds => join " & " (print bounds)
  | _, .unionType alternatives => join " | " (print alternatives)
  | _, .varType => text "var"
  | _, .typeParameter annotations name bounds =>
    all [prefixes (print annotations), text name, list " extends " " & " "" (print bounds)]
  | _, .typePattern modifiers type name =>
    all [prefixes (print modifiers), print type, text " ", text name]
  | _, .recordPattern type components => all [print type, parens (print components)]
  | _, .unnamedPattern => text "_"
  -- Annotations, modifiers, variables and parameters
  | _, .annotationUse name arguments => all [text "@", text (dotted name), print arguments]
  | _, .noArguments => id
  | _, .singleArgument value => all [text "(", print value, text ")"]
  | _, .namedArguments pairs => parens (print pairs)
  | _, .elementExpression expression => (print expression : Print)
  | _, .elementAnnotated annotationNode => (print annotationNode : Print)
  | _, .elementArray values => all [text "\x7b", join ", " (print values), text "\x7d"]
  | _, .elementValuePair name value => all [text name, text " = ", print value]
  | _, .keywordModifier keyword => text keyword.text
  | _, .sealedModifier => text "sealed"
  | _, .nonSealedModifier => text "non-sealed"
  | _, .annotatedModifier annotationTree => (print annotationTree : Print)
  | _, .parameter modifiers type varargs name dimensions _ =>
    all [prefixes (print modifiers), print type, textIf varargs "...", text " ",
      text name, times dimensions (text "[]")]
  | _, .variableDeclarator name dimensions initializer =>
    all [text name, times dimensions (text "[]"),
      optional (fun p => all [text " = ", p]) (print initializer)]
  -- Declarations
  | _, .classDeclaration modifiers name typeParameters extended implemented permitted body =>
    all [prefixes (print modifiers), text "class ", text name, angles (print typeParameters),
      optional (fun p => all [text " extends ", p]) (print extended),
      clause "implements" (print implemented), clause "permits" (print permitted), text " ",
      bracedLines (print body)]
  | _, .interfaceDeclaration modifiers name typeParameters extended permitted body =>
    all [prefixes (print modifiers), text "interface ", text name, angles (print typeParameters),
      clause "extends" (print extended), clause "permits" (print permitted), text " ",
      bracedLines (print body)]
  | _, .annotationTypeDeclaration modifiers name body =>
    all [prefixes (print modifiers), text "@interface ", text name, text " ",
      bracedLines (print body)]
  | _, .enumDeclaration modifiers name implemented constants body =>
    all [prefixes (print modifiers), text "enum ", text name,
      clause "implements" (print implemented), text " ", enumBody (print constants) (print body)]
  | _, .recordDeclaration modifiers name typeParameters components implemented body =>
    all [prefixes (print modifiers), text "record ", text name, angles (print typeParameters),
      parens (print components), clause "implements" (print implemented), text " ",
      bracedLines (print body)]
  | _, .enumConstant annotations name arguments body =>
    all [prefixes (print annotations), text name, optional parens (print arguments),
      optional (fun ps => all [text " ", bracedLines ps]) (print body)]
  | _, .fieldDeclaration modifiers type declarators =>
    all [prefixes (print modifiers), print type, text " ", join ", " (print declarators),
      text ";"]
  | _, .methodDeclaration modifiers typeParameters type name parameters dimensions thrown
      defaultValue body =>
    all [prefixes (print modifiers), leadingTypeParameters (print typeParameters), print type,
      text " ", text name, parens (print parameters), times dimensions (text "[]"),
      clause "throws" (print thrown),
      optional (fun p => all [text " default ", p]) (print defaultValue),
      methodEnd (print body)]
  | _, .constructorDeclaration modifiers typeParameters name parameters thrown body =>
    all [prefixes (print modifiers), leadingTypeParameters (print typeParameters), text name,
      parens (print parameters), clause "throws" (print thrown), text " ", print body]
  | _, .compactConstructor modifiers name body =>
    all [prefixes (print modifiers), text name, text " ", print body]
  | _, .initializerBlock isStatic body =>
    all [textIf isStatic "static ", print body]
  | _, .memberType declaration => (print declaration : Print)
  | _, .emptyMember => text ";"
  -- Modules and compilation units
  | _, .requires modifiers module =>
    all [text "requires ", all (modifiers.map fun m => text (m.text ++ " ")), text (dotted module),
      text ";"]
  | _, .exports package modules =>
    all [text "exports ", text (dotted package), targetModules modules, text ";"]
  | _, .opens package modules =>
    all [text "opens ", text (dotted package), targetModules modules, text ";"]
  | _, .uses service => all [text "uses ", print service, text ";"]
  | _, .provides service implementations =>
    all [text "provides ", print service, clause "with" (print implementations), text ";"]
  | _, .moduleDeclaration annotations isOpen name directives =>
    all [prefixes (print annotations), textIf isOpen "open ", text "module ",
      text (dotted name), text " ", bracedLines (print directives)]
  | _, .packageDeclaration annotations name =>
    all [prefixes (print annotations), text "package ", text (dotted name), text ";"]
  | _, .importDeclaration isStatic name onDemand =>
    all [text "import ", textIf isStatic "static ", text (dotted name), textIf onDemand ".*",
      text ";"]
  | _, .compilationUnit package imports types module =>
    sections (print package) (print imports) (print types) (print module)

end Tree

/-- What a writer that has written nothing makes of something. -/
def Print.run (p : Print) : String := (p .empty).finish

/-- Prints what a form is printed as, with its parts one after the other. -/
def Form.flatten : (f : Form) → f.Printed → Print
  | .list f => fun ps => .all (ps.map f.flatten)
  | .option f => .optional f.flatten
  | .node f => f.flatten
  | .expression | .instanceOfTarget | .lambdaParameters | .lambdaBody | .referenceTarget
  | .switchBody | .switchRule | .ruleBody | .switchGroup | .switchLabel | .caseLabel
  | .statement | .localVariable | .forInit | .catchClause | .resource | .block
  | .type | .classTypeSegment | .dimension | .wildcardBound | .typeParameter | .pattern
  | .annotationUse | .annotationArguments | .elementValue | .elementValuePair | .modifier
  | .parameter | .variableDeclarator | .typeDeclaration | .enumConstant | .member
  | .directive | .moduleDeclaration | .packageDeclaration | .importDeclaration
  | .compilationUnit => fun p => p

/-- The canonical source of a tree. -/
def Tree.canonical {f : Form} (t : Tree f) : String := Print.run (f.flatten t.print)

end JavaSyntax
