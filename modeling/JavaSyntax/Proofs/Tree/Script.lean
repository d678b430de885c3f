import JavaSyntax.Proofs.Tree.Pieces

/-!
# The words of a tree

A tree is printed as words with white space between some of them. Which words these are, and
which of them touch, is a function of the tree that knows nothing of lines and of indentation:
its script. Closing angles that touch are read as one token, so they are put together in the
end.
-/

namespace JavaSyntax

/-! ### Words and gaps -/

/-- The token that writes a literal of a type with a text. -/
def LiteralKind.token (text : String) : LiteralKind → TokenKind
  | .int => .intLiteral
  | .long => .longLiteral
  | .float => .floatLiteral
  | .double => .doubleLiteral
  | .char => .charLiteral
  | .string => .stringLiteral
  | .textBlock => .textBlock
  | .boolean => classifyWord text
  | .null => .nullLiteral

/-- A word, or a gap that white space fills. -/
inductive Mark where
  | gap
  | word (kind : TokenKind) (text : String)
deriving DecidableEq, Repr

namespace Mark

/-- The word of a kind that is spelt in one way only. -/
def sign (kind : TokenKind) : Mark := .word kind (kind.symbol?.getD "")

def keyword (word : Keyword) : Mark := .sign (.keyword word)

/-- The word that has the form of an identifier. -/
def name (text : String) : Mark := .word (classifyWord text) text

def literal (l : LiteralText) : Mark := .word (l.kind.token l.text) l.text

/-- The characters of a mark, if a gap is a single blank. -/
def chars : Mark → List Char
  | gap => [' ']
  | word _ text => text.toList

/-- The kind and the text of a word. -/
def word? : Mark → Option (TokenKind × String)
  | gap => none
  | word kind text => some (kind, text)

end Mark

/-- Words with gaps between some of them. Words without a gap between them touch. -/
abbrev Script := List Mark

/-! ### Putting scripts together -/

namespace Script

open Mark

/-- The characters of a script, if its gaps are single blanks. -/
def spelling (ms : Script) : List Char := ms.flatMap chars

/-- The words of a script. -/
def words (ms : Script) : List (TokenKind × String) := ms.filterMap word?

/-- One script after the other. -/
def all (ss : List Script) : Script := ss.flatten

/-- Scripts with another one between them. -/
def join (separator : Script) : List Script → Script
  | [] => []
  | [s] => s
  | s :: ss => s ++ (separator ++ join separator ss)

def optional {α : Type} (script : α → Script) : Option α → Script
  | none => []
  | some x => script x

/-- Each script on a line of its own between braces. -/
def bracedLines (ss : List Script) : Script :=
  if ss.isEmpty then [sign .leftBrace, sign .rightBrace]
  else all [[sign .leftBrace, gap], ss.flatMap fun s => all [s, [gap]], [sign .rightBrace]]

/-- A list with what opens, separates and closes it, or nothing if it is empty. -/
def list (opening separator closing : Script) (ss : List Script) : Script :=
  if ss.isEmpty then [] else all [opening, join separator ss, closing]

def angles (ss : List Script) : Script :=
  list [sign .less] [sign .comma, gap] [sign .greater] ss

def parens (ss : List Script) : Script :=
  all [[sign .leftParen], join [sign .comma, gap] ss, [sign .rightParen]]

/-- Scripts with a gap after each. -/
def prefixes (ss : List Script) : Script := ss.flatMap fun s => all [s, [gap]]

/-- A word and the scripts that it introduces, if there are any. -/
def clause (word : Mark) (ss : List Script) : Script :=
  list [gap, word, gap] [sign .comma, gap] [] ss

def onlyIf (condition : Bool) (ms : Script) : Script := if condition then ms else []

def times (n : Nat) (ms : Script) : Script := all (List.replicate n ms)

/-- Names with a separator between them. -/
def names (separator : Script) (ns : List String) : Script :=
  join separator (ns.map fun n => [name n])

/-- The script of `a.b.c`. -/
def dots (ns : List String) : Script := names [sign .dot] ns

/-- The script of a name that may have dots in it. -/
def path (text : String) : Script := dots ((text.toList.splitOn '.').map String.ofList)

end Script

/-! ### The script of a tree -/

/-- What the script of a form is: one script, or one for each part. -/
@[reducible] def Form.Scripted : Form → Type
  | .list f => List f.Scripted
  | .option f => Option f.Scripted
  | .node f => f.Scripted
  | _ => Script

namespace Tree

open Script

/-- What stands between an operator and its operand. -/
def operatorMargin (operator : UnaryOperator) (operand : Tree .expression) : Script :=
  if (operator.symbol.toList.head?).any (startsWithOperator · operand) then [.gap] else []

/-- The script of what stands before a dot. -/
def qualifiedScript (qualifier : Option Script) : Script :=
  optional (fun s => all [s, [.sign .dot]]) qualifier

def implicitScript (names : List String) (inParens : Bool) : Script :=
  match names, inParens with
  | [name], false => [.name name]
  | names, _ =>
    all [[.sign .leftParen], Script.names [.sign .comma, .gap] names, [.sign .rightParen]]

/-- The script of dimensions, each after the annotations that come next in order. -/
def dimensionScripts : List Script → List (List Script) → Script
  | [], _ => []
  | d :: ds, [] => all [d, dimensionScripts ds []]
  | d :: ds, [] :: rest => all [d, dimensionScripts ds rest]
  | d :: ds, annotations :: rest =>
    all [[.gap], prefixes annotations, d, dimensionScripts ds rest]

def newDimensionsScript (sizes : List Script) (extra : Nat) (annotations : List (List Script)) :
    Script :=
  dimensionScripts
    (sizes.map (fun s => all [[.sign .leftBracket], s, [.sign .rightBracket]]) ++
      List.replicate extra [.sign .leftBracket, .sign .rightBracket])
    annotations

/-- The script of an operator before or after its operand. -/
def operationScript (operator : UnaryOperator) (margin operand : Script) : Script :=
  if operator.isPostfix then all [operand, [.sign operator.token]]
  else all [[.sign operator.token], margin, operand]

def labelsScript (isDefault : Bool) (labels : List Script) (guard : Option Script) : Script :=
  if isDefault then [.keyword .default]
  else all [[.keyword .case, .gap], join [.sign .comma, .gap] labels,
    optional (fun s => all [[.gap, .name "when", .gap], s]) guard]

def methodEndScript : Option Script → Script
  | some body => all [[.gap], body]
  | none => [.sign .semicolon]

def enumScript (constants body : List Script) : Script :=
  if constants.isEmpty && body.isEmpty then [.sign .leftBrace, .sign .rightBrace]
  else all [[.sign .leftBrace, .gap], join [.sign .comma, .gap] constants,
    if body.isEmpty then [.gap]
    else all [[.sign .semicolon], [.gap], body.flatMap fun s => all [s, [.gap]]],
    [.sign .rightBrace]]

def leadingParametersScript (parameters : List Script) : Script :=
  if parameters.isEmpty then [] else all [angles parameters, [.gap]]

def targetScript (modules : List (List String)) : Script :=
  if modules.isEmpty then []
  else all [[.gap, .name "to", .gap], join [.sign .comma, .gap] (modules.map dots)]

def groupScript (labels statements : List Script) : Script :=
  all [join [.gap] (labels.map fun s => all [s, [.sign .colon]]),
    statements.flatMap (fun s => all [[.gap], s])]

def sectionsScript (package : Option Script) (imports types : List Script)
    (module : Option Script) : Script :=
  let imported := if imports.isEmpty then [] else [join [.gap] imports]
  join [.gap, .gap] (package.toList ++ imported ++ types ++ module.toList)

/-- The words that a tree is printed as, with the gaps between them. -/
def script : {f : Form} → Tree f → f.Scripted
  | _, .nil => []
  | _, .cons head tail => script head :: script tail
  | _, .absent => none
  | _, .present t => some (script t)
  | .node f, .located t _ _ => script (f := f) t
  -- Expressions
  | _, .literal l => ([.literal l] : Script)
  | _, .simpleName name => ([.name name] : Script)
  | _, .this qualifier => all [qualifiedScript (script qualifier), [.keyword .this]]
  | _, .super qualifier => all [qualifiedScript (script qualifier), [.keyword .super]]
  | _, .fieldAccess target name => all [script target, [.sign .dot], [.name name]]
  | _, .arrayAccess array index =>
    all [script array, [.sign .leftBracket], script index, [.sign .rightBracket]]
  | _, .methodCall target typeArguments name arguments =>
    all [qualifiedScript (script target), angles (script typeArguments), [.name name],
      parens (script arguments)]
  | _, .objectCreation outer typeArguments type arguments body =>
    all [qualifiedScript (script outer), [.keyword .new, .gap], angles (script typeArguments),
      script type, parens (script arguments),
      optional (fun ss => all [[.gap], bracedLines ss]) (script body)]
  | _, .arrayCreation element dimensions extraDimensions annotations initializer =>
    all [[.keyword .new, .gap], script element,
      newDimensionsScript (script dimensions) extraDimensions (script annotations),
      optional (fun s => all [[.gap], s]) (script initializer)]
  | _, .arrayInitializer elements =>
    all [[.sign .leftBrace], join [.sign .comma, .gap] (script elements), [.sign .rightBrace]]
  | _, .unary operator operand =>
    operationScript operator (operatorMargin operator operand.inner) (script operand)
  | _, .binary left operator right =>
    all [script left, [.gap], [.sign operator.token], [.gap], script right]
  | _, .assignment target operator value =>
    all [script target, [.gap], [.sign operator.token], [.gap], script value]
  | _, .conditional condition thenValue elseValue =>
    all [script condition, [.gap, .sign .question, .gap], script thenValue,
      [.gap, .sign .colon, .gap], script elseValue]
  | _, .instanceOf expression target =>
    all [script expression, [.gap, .keyword .instanceof, .gap], script target]
  | _, .cast targetType expression =>
    all [[.sign .leftParen], script targetType, [.sign .rightParen, .gap], script expression]
  | _, .lambda parameters body =>
    all [script parameters, [.gap, .sign .arrow, .gap], script body]
  | _, .methodReference target typeArguments name =>
    all [script target, [.sign .colonColon], angles (script typeArguments), [.name name]]
  | _, .classLiteral type => all [script type, [.sign .dot, .keyword .class]]
  | _, .parenthesized expression =>
    all [[.sign .leftParen], script expression, [.sign .rightParen]]
  | _, .switchExpression selector body =>
    all [[.keyword .switch, .gap, .sign .leftParen], script selector,
      [.sign .rightParen, .gap], script body]
  | _, .testType type => (script type : Script)
  | _, .testPattern pattern => (script pattern : Script)
  | _, .implicitParameters names inParens => implicitScript names inParens
  | _, .explicitParameters parameters => parens (script parameters)
  | _, .lambdaExpression expression => (script expression : Script)
  | _, .lambdaBlock body => (script body : Script)
  | _, .expressionTarget expression => (script expression : Script)
  | _, .typeTarget type => (script type : Script)
  -- Switches
  | _, .rules cases => bracedLines (script cases)
  | _, .groups cases => bracedLines (script cases)
  | _, .switchRule label body => all [script label, [.gap, .sign .arrow, .gap], script body]
  | _, .ruleExpression expression => all [script expression, [.sign .semicolon]]
  | _, .ruleBlock body => (script body : Script)
  | _, .ruleThrow statement => (script statement : Script)
  | _, .switchGroup labels statements => groupScript (script labels) (script statements)
  | _, .switchLabel labels guard =>
    labelsScript (switchLabel labels guard).isDefault (script labels) (script guard)
  | _, .caseConstant expression => (script expression : Script)
  | _, .casePattern pattern => (script pattern : Script)
  | _, .caseNull => ([.sign .nullLiteral] : Script)
  | _, .caseDefault => ([.keyword .default] : Script)
  -- Statements
  | _, .block statements => bracedLines (script statements)
  | _, .blockStatement body => (script body : Script)
  | _, .emptyStatement => ([.sign .semicolon] : Script)
  | _, .expressionStatement expression => all [script expression, [.sign .semicolon]]
  | _, .localVariable declaration => all [script declaration, [.sign .semicolon]]
  | _, .localClass declaration => (script declaration : Script)
  | _, .ifStatement condition thenBranch elseBranch =>
    all [[.keyword .if, .gap, .sign .leftParen], script condition, [.sign .rightParen, .gap],
      script thenBranch, optional (fun s => all [[.gap, .keyword .else, .gap], s])
        (script elseBranch)]
  | _, .whileStatement condition body =>
    all [[.keyword .while, .gap, .sign .leftParen], script condition, [.sign .rightParen, .gap],
      script body]
  | _, .doStatement body condition =>
    all [[.keyword .do, .gap], script body, [.gap, .keyword .while, .gap, .sign .leftParen],
      script condition, [.sign .rightParen, .sign .semicolon]]
  | _, .forStatement init condition update body =>
    all [[.keyword .for, .gap, .sign .leftParen], optional id (script init), [.sign .semicolon],
      optional (fun s => all [[.gap], s]) (script condition), [.sign .semicolon],
      list [.gap] [.sign .comma, .gap] [] (script update), [.sign .rightParen, .gap], script body]
  | _, .forEachStatement modifiers type name iterable body =>
    all [[.keyword .for, .gap, .sign .leftParen], prefixes (script modifiers), script type,
      [.gap], [.name name], [.gap, .sign .colon, .gap], script iterable, [.sign .rightParen, .gap],
      script body]
  | _, .switchStatement selector body =>
    all [[.keyword .switch, .gap, .sign .leftParen], script selector,
      [.sign .rightParen, .gap], script body]
  | _, .returnStatement value =>
    all [[.keyword .return], optional (fun s => all [[.gap], s]) (script value), [.sign .semicolon]]
  | _, .breakStatement label =>
    all [[.keyword .break], optional (fun name => all [[.gap], [.name name]]) label,
      [.sign .semicolon]]
  | _, .continueStatement label =>
    all [[.keyword .continue], optional (fun name => all [[.gap], [.name name]]) label,
      [.sign .semicolon]]
  | _, .throwStatement thrown => all [[.keyword .throw, .gap], script thrown, [.sign .semicolon]]
  | _, .tryStatement resources body catches finallyBlock =>
    all [[.keyword .try],
      list [.gap, .sign .leftParen] [.sign .semicolon, .gap] [.sign .rightParen] (script resources),
      [.gap], script body, (script catches).flatMap (fun s => all [[.gap], s]),
      optional (fun s => all [[.gap, .keyword .finally, .gap], s]) (script finallyBlock)]
  | _, .synchronizedStatement lock body =>
    all [[.keyword .synchronized, .gap, .sign .leftParen], script lock, [.sign .rightParen, .gap],
      script body]
  | _, .labeledStatement label statement =>
    all [[.name label], [.sign .colon, .gap], script statement]
  | _, .assertStatement condition message =>
    all [[.keyword .assert, .gap], script condition,
      optional (fun s => all [[.gap, .sign .colon, .gap], s]) (script message), [.sign .semicolon]]
  | _, .yieldStatement value => all [[.name "yield", .gap], script value, [.sign .semicolon]]
  | _, .constructorInvocation qualifier typeArguments kind arguments =>
    all [qualifiedScript (script qualifier), angles (script typeArguments), [.name kind.text],
      parens (script arguments), [.sign .semicolon]]
  | _, .localVariables modifiers type declarators =>
    all [prefixes (script modifiers), script type, [.gap],
      join [.sign .comma, .gap] (script declarators)]
  | _, .forDeclaration declaration => (script declaration : Script)
  | _, .forExpressions expressions => join [.sign .comma, .gap] (script expressions)
  | _, .catchClause modifiers types name body =>
    all [[.keyword .catch, .gap, .sign .leftParen], prefixes (script modifiers),
      join [.gap, .sign .pipe, .gap] (script types),
      [.gap], [.name name], [.sign .rightParen, .gap], script body]
  | _, .resourceDeclaration modifiers type name initializer =>
    all [prefixes (script modifiers), script type, [.gap], [.name name],
      [.gap, .sign .assign, .gap], script initializer]
  | _, .resourceExpression expression => (script expression : Script)
  -- Types and patterns
  | _, .primitiveType annotations primitive =>
    all [prefixes (script annotations), [.keyword primitive.keyword]]
  | _, .voidType => ([.keyword .void] : Script)
  | _, .classType segments => join [.sign .dot] (script segments)
  | _, .classTypeSegment annotations name typeArguments =>
    all [prefixes (script annotations), [.name name],
      optional (fun ss => if ss.isEmpty then [.sign .less, .sign .greater] else angles ss)
        (script typeArguments)]
  | _, .arrayType element dimensions => all [script element, all (script dimensions)]
  | _, .dimension annotations =>
    all [list [.gap] [.gap] [.gap] (script annotations), [.sign .leftBracket, .sign .rightBracket]]
  | _, .wildcardType annotations bound =>
    all [prefixes (script annotations), [.sign .question], optional id (script bound)]
  | _, .extendsBound type => all [[.gap, .keyword .extends, .gap], script type]
  | _, .superBound type => all [[.gap, .keyword .super, .gap], script type]
  | _, .intersectionType bounds => join [.gap, .sign .amp, .gap] (script bounds)
  | _, .unionType alternatives => join [.gap, .sign .pipe, .gap] (script alternatives)
  | _, .varType => ([.name "var"] : Script)
  | _, .typeParameter annotations name bounds =>
    all [prefixes (script annotations), [.name name],
      list [.gap, .keyword .extends, .gap] [.gap, .sign .amp, .gap] [] (script bounds)]
  | _, .typePattern modifiers type name =>
    all [prefixes (script modifiers), script type, [.gap], [.name name]]
  | _, .recordPattern type components => all [script type, parens (script components)]
  | _, .unnamedPattern => ([.name "_"] : Script)
  -- Annotations, modifiers, variables and parameters
  | _, .annotationUse name arguments =>
    all [[.sign .at], dots name, script arguments]
  | _, .noArguments => ([] : Script)
  | _, .singleArgument value => all [[.sign .leftParen], script value, [.sign .rightParen]]
  | _, .namedArguments pairs => parens (script pairs)
  | _, .elementExpression expression => (script expression : Script)
  | _, .elementAnnotated annotationNode => (script annotationNode : Script)
  | _, .elementArray values =>
    all [[.sign .leftBrace], join [.sign .comma, .gap] (script values), [.sign .rightBrace]]
  | _, .elementValuePair name value => all [[.name name], [.gap, .sign .assign, .gap], script value]
  | _, .keywordModifier word => ([.keyword word] : Script)
  | _, .sealedModifier => ([.name "sealed"] : Script)
  | _, .nonSealedModifier => ([.name "non", .sign .minus, .name "sealed"] : Script)
  | _, .annotatedModifier annotationTree => (script annotationTree : Script)
  | _, .parameter modifiers type varargs name dimensions _ =>
    all [prefixes (script modifiers), script type, onlyIf varargs [.sign .ellipsis], [.gap],
      path name, times dimensions [.sign .leftBracket, .sign .rightBracket]]
  | _, .variableDeclarator name dimensions initializer =>
    all [[.name name], times dimensions [.sign .leftBracket, .sign .rightBracket],
      optional (fun s => all [[.gap, .sign .assign, .gap], s]) (script initializer)]
  -- Declarations
  | _, .classDeclaration modifiers name typeParameters extended implemented permitted body =>
    all [prefixes (script modifiers), [.keyword .class, .gap], [.name name],
      angles (script typeParameters),
      optional (fun s => all [[.gap, .keyword .extends, .gap], s]) (script extended),
      clause (.keyword .implements) (script implemented),
      clause (.name "permits") (script permitted), [.gap], bracedLines (script body)]
  | _, .interfaceDeclaration modifiers name typeParameters extended permitted body =>
    all [prefixes (script modifiers), [.keyword .interface, .gap], [.name name],
      angles (script typeParameters), clause (.keyword .extends) (script extended),
      clause (.name "permits") (script permitted), [.gap], bracedLines (script body)]
  | _, .annotationTypeDeclaration modifiers name body =>
    all [prefixes (script modifiers), [.sign .at, .keyword .interface, .gap], [.name name], [.gap],
      bracedLines (script body)]
  | _, .enumDeclaration modifiers name implemented constants body =>
    all [prefixes (script modifiers), [.keyword .enum, .gap], [.name name],
      clause (.keyword .implements) (script implemented), [.gap],
      enumScript (script constants) (script body)]
  | _, .recordDeclaration modifiers name typeParameters components implemented body =>
    all [prefixes (script modifiers), [.name "record", .gap], [.name name],
      angles (script typeParameters), parens (script components),
      clause (.keyword .implements) (script implemented), [.gap], bracedLines (script body)]
  | _, .enumConstant annotations name arguments body =>
    all [prefixes (script annotations), [.name name], optional parens (script arguments),
      optional (fun ss => all [[.gap], bracedLines ss]) (script body)]
  | _, .fieldDeclaration modifiers type declarators =>
    all [prefixes (script modifiers), script type, [.gap],
      join [.sign .comma, .gap] (script declarators), [.sign .semicolon]]
  | _, .methodDeclaration modifiers typeParameters type name parameters dimensions thrown
      defaultValue body =>
    all [prefixes (script modifiers), leadingParametersScript (script typeParameters),
      script type, [.gap], [.name name], parens (script parameters),
      times dimensions [.sign .leftBracket, .sign .rightBracket],
      clause (.keyword .throws) (script thrown),
      optional (fun s => all [[.gap, .keyword .default, .gap], s]) (script defaultValue),
      methodEndScript (script body)]
  | _, .constructorDeclaration modifiers typeParameters name parameters thrown body =>
    all [prefixes (script modifiers), leadingParametersScript (script typeParameters),
      [.name name], parens (script parameters), clause (.keyword .throws) (script thrown), [.gap],
      script body]
  | _, .compactConstructor modifiers name body =>
    all [prefixes (script modifiers), [.name name], [.gap], script body]
  | _, .initializerBlock isStatic body =>
    all [onlyIf isStatic [.keyword .static, .gap], script body]
  | _, .memberType declaration => (script declaration : Script)
  | _, .emptyMember => ([.sign .semicolon] : Script)
  -- Modules and compilation units
  | _, .requires modifiers module =>
    all [[.name "requires", .gap], all (modifiers.map fun m => [.name m.text, .gap]),
      dots module, [.sign .semicolon]]
  | _, .exports package modules =>
    all [[.name "exports", .gap], dots package, targetScript modules, [.sign .semicolon]]
  | _, .opens package modules =>
    all [[.name "opens", .gap], dots package, targetScript modules, [.sign .semicolon]]
  | _, .uses service => all [[.name "uses", .gap], script service, [.sign .semicolon]]
  | _, .provides service implementations =>
    all [[.name "provides", .gap], script service, clause (.name "with") (script implementations),
      [.sign .semicolon]]
  | _, .moduleDeclaration annotations isOpen name directives =>
    all [prefixes (script annotations), onlyIf isOpen [.name "open", .gap],
      [.name "module", .gap], dots name, [.gap], bracedLines (script directives)]
  | _, .packageDeclaration annotations name =>
    all [prefixes (script annotations), [.keyword .package, .gap], dots name, [.sign .semicolon]]
  | _, .importDeclaration isStatic name onDemand =>
    all [[.keyword .import, .gap], onlyIf isStatic [.keyword .static, .gap], dots name,
      onlyIf onDemand [.sign .dot, .sign .star], [.sign .semicolon]]
  | _, .compilationUnit package imports types module =>
    sectionsScript (script package) (script imports) (script types) (script module)

end Tree

/-- The scripts of a form, one after the other. -/
def Form.unroll : (f : Form) → f.Scripted → Script
  | .list f => fun ss => ss.flatMap f.unroll
  | .option f => Script.optional f.unroll
  | .node f => f.unroll
  | .expression | .instanceOfTarget | .lambdaParameters | .lambdaBody | .referenceTarget
  | .switchBody | .switchRule | .ruleBody | .switchGroup | .switchLabel | .caseLabel
  | .statement | .localVariable | .forInit | .catchClause | .resource | .block
  | .type | .classTypeSegment | .dimension | .wildcardBound | .typeParameter | .pattern
  | .annotationUse | .annotationArguments | .elementValue | .elementValuePair | .modifier
  | .parameter | .variableDeclarator | .typeDeclaration | .enumConstant | .member
  | .directive | .moduleDeclaration | .packageDeclaration | .importDeclaration
  | .compilationUnit => fun ms => ms

/-! ### Closing angles -/

namespace Script

/-- Puts closing angles that touch together, three at a time and then the rest. -/
def fuse : Script → Script
  | .word .greater a :: .word .greater b :: .word .greater c :: ms =>
    .word .unsignedShiftRight (a ++ b ++ c) :: fuse ms
  | .word .greater a :: .word .greater b :: ms => .word .shiftRight (a ++ b) :: fuse ms
  | m :: ms => m :: fuse ms
  | [] => []

end Script

namespace Tree

variable {f : Form}

/-- The script of a tree in which closing angles are read as they are printed. -/
def setting (t : Tree f) : Script := Script.fuse (f.unroll t.script)

/-- The kinds and the texts of the words of a tree. -/
def wording (t : Tree f) : List (TokenKind × String) := t.setting.words

end Tree

end JavaSyntax
