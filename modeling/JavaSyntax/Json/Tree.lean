import JavaSyntax.Json.Token
import JavaSyntax.Tree.Basic

/-!
# Trees as JSON

The dump of a tree. A construct with named parts is written as an object, one that
is a case of its form as an object with the name of the case for its only key, and
a node as its tree with its span and source.
-/

namespace JavaSyntax

namespace LiteralText

def toJson (l : LiteralText) : Json :=
  .object [("kind", .string l.kind.name), ("value", .ofOption LiteralValue.toJson l.value),
    ("text", .string l.text)]

end LiteralText

namespace ConstructorCall

def name : ConstructorCall → String
  | .this => "This"
  | .super => "Super"

end ConstructorCall

namespace RequiresModifier

def name : RequiresModifier → String
  | .transitive => "Transitive"
  | .static => "Static"

end RequiresModifier

namespace Json

/-- Puts a value in front of an array. -/
def consItem (head : Json) : Json → Json
  | .array items => .array (head :: items)
  | other => other

/-- A case with named parts. -/
def variant (tag : String) (fields : List (String × Json)) : Json := tagged tag (.object fields)

/-- A list of names. -/
def names (xs : List String) : Json := ofList .string xs

end Json

namespace Tree

/-- The dump of a tree. -/
def toJson : {f : Form} → Tree f → Json
  | _, .nil => .array []
  | _, .cons head tail => .consItem (toJson head) (toJson tail)
  | _, .absent => .null
  | _, .present t => toJson t
  | _, .located t span source =>
    .object [("node", toJson t), ("span", span.toJson), ("source", .string source)]
  -- Expressions
  | _, .literal l => .tagged "Literal" l.toJson
  | _, .simpleName name => .variant "Name" [("name", .string name)]
  | _, .this qualifier => .variant "This" [("qualifier", toJson qualifier)]
  | _, .super qualifier => .variant "Super" [("qualifier", toJson qualifier)]
  | _, .fieldAccess target name =>
    .variant "FieldAccess" [("target", toJson target), ("name", .string name)]
  | _, .arrayAccess array index =>
    .variant "ArrayAccess" [("array", toJson array), ("index", toJson index)]
  | _, .methodCall target typeArguments name arguments =>
    .variant "MethodCall" [("target", toJson target), ("type_arguments", toJson typeArguments),
      ("name", .string name), ("arguments", toJson arguments)]
  | _, .objectCreation outer typeArguments type arguments body =>
    .variant "ObjectCreation" [("outer", toJson outer), ("type_arguments", toJson typeArguments),
      ("class_type", toJson type), ("arguments", toJson arguments), ("body", toJson body)]
  | _, .arrayCreation element dimensions extraDimensions annotations initializer =>
    .variant "ArrayCreation" [("element", toJson element), ("dimensions", toJson dimensions),
      ("extra_dimensions", .int extraDimensions), ("dimension_annotations", toJson annotations),
      ("initializer", toJson initializer)]
  | _, .arrayInitializer elements => .variant "ArrayInitializer" [("elements", toJson elements)]
  | _, .unary operator operand =>
    .variant "Unary" [("operator", .string operator.name), ("operand", toJson operand)]
  | _, .binary left operator right =>
    .variant "Binary" [("left", toJson left), ("operator", .string operator.name),
      ("right", toJson right)]
  | _, .assignment target operator value =>
    .variant "Assignment" [("target", toJson target), ("operator", .string operator.name),
      ("value", toJson value)]
  | _, .conditional condition thenValue elseValue =>
    .variant "Conditional" [("condition", toJson condition), ("then_value", toJson thenValue),
      ("else_value", toJson elseValue)]
  | _, .instanceOf expression target =>
    .variant "InstanceOf" [("expression", toJson expression), ("target", toJson target)]
  | _, .cast targetType expression =>
    .variant "Cast" [("target_type", toJson targetType), ("expression", toJson expression)]
  | _, .lambda parameters body =>
    .variant "Lambda" [("parameters", toJson parameters), ("body", toJson body)]
  | _, .methodReference target typeArguments name =>
    .variant "MethodReference" [("target", toJson target), ("type_arguments", toJson typeArguments),
      ("name", .string name)]
  | _, .classLiteral type => .variant "ClassLiteral" [("class_type", toJson type)]
  | _, .parenthesized expression => .variant "Parenthesized" [("expression", toJson expression)]
  | _, .switchExpression selector body =>
    .variant "Switch" [("selector", toJson selector), ("body", toJson body)]
  | _, .testType type => .tagged "Type" (toJson type)
  | _, .testPattern pattern => .tagged "Pattern" (toJson pattern)
  | _, .implicitParameters names inParens =>
    .variant "Implicit" [("names", .names names), ("parenthesized", .bool inParens)]
  | _, .explicitParameters parameters => .tagged "Explicit" (toJson parameters)
  | _, .lambdaExpression expression => .tagged "Expression" (toJson expression)
  | _, .lambdaBlock body => .tagged "Block" (toJson body)
  | _, .expressionTarget expression => .tagged "Expression" (toJson expression)
  | _, .typeTarget type => .tagged "Type" (toJson type)
  -- Switches
  | _, .rules cases => .tagged "Rules" (toJson cases)
  | _, .groups cases => .tagged "Groups" (toJson cases)
  | _, .switchRule label body => .object [("label", toJson label), ("body", toJson body)]
  | _, .ruleExpression expression => .tagged "Expression" (toJson expression)
  | _, .ruleBlock body => .tagged "Block" (toJson body)
  | _, .ruleThrow statement => .tagged "Throw" (toJson statement)
  | _, .switchGroup labels statements =>
    .object [("labels", toJson labels), ("statements", toJson statements)]
  | _, .switchLabel labels guard => .object [("labels", toJson labels), ("guard", toJson guard)]
  | _, .caseConstant expression => .tagged "Expression" (toJson expression)
  | _, .casePattern pattern => .tagged "Pattern" (toJson pattern)
  | _, .caseNull => .string "Null"
  | _, .caseDefault => .string "Default"
  -- Statements
  | _, .block statements => .object [("statements", toJson statements)]
  | _, .blockStatement body => .tagged "Block" (toJson body)
  | _, .emptyStatement => .string "Empty"
  | _, .expressionStatement expression => .variant "Expression" [("expression", toJson expression)]
  | _, .localVariable declaration => .tagged "LocalVariable" (toJson declaration)
  | _, .localClass declaration => .variant "LocalClass" [("declaration", toJson declaration)]
  | _, .ifStatement condition thenBranch elseBranch =>
    .variant "If" [("condition", toJson condition), ("then_branch", toJson thenBranch),
      ("else_branch", toJson elseBranch)]
  | _, .whileStatement condition body =>
    .variant "While" [("condition", toJson condition), ("body", toJson body)]
  | _, .doStatement body condition =>
    .variant "DoWhile" [("body", toJson body), ("condition", toJson condition)]
  | _, .forStatement init condition update body =>
    .variant "For" [("init", toJson init), ("condition", toJson condition),
      ("update", toJson update), ("body", toJson body)]
  | _, .forEachStatement modifiers type name iterable body =>
    .variant "ForEach" [("modifiers", toJson modifiers), ("var_type", toJson type),
      ("name", .string name), ("iterable", toJson iterable), ("body", toJson body)]
  | _, .switchStatement selector body =>
    .variant "Switch" [("selector", toJson selector), ("body", toJson body)]
  | _, .returnStatement value => .variant "Return" [("value", toJson value)]
  | _, .breakStatement label => .variant "Break" [("label", .ofOption .string label)]
  | _, .continueStatement label => .variant "Continue" [("label", .ofOption .string label)]
  | _, .throwStatement thrown => .variant "Throw" [("exception", toJson thrown)]
  | _, .tryStatement resources body catches finallyBlock =>
    .variant "Try" [("resources", toJson resources), ("block", toJson body),
      ("catches", toJson catches), ("finally", toJson finallyBlock)]
  | _, .synchronizedStatement lock body =>
    .variant "Synchronized" [("lock", toJson lock), ("block", toJson body)]
  | _, .labeledStatement label statement =>
    .variant "Labeled" [("label", .string label), ("statement", toJson statement)]
  | _, .assertStatement condition message =>
    .variant "Assert" [("condition", toJson condition), ("message", toJson message)]
  | _, .yieldStatement value => .variant "Yield" [("value", toJson value)]
  | _, .constructorInvocation qualifier typeArguments kind arguments =>
    .variant "ConstructorInvocation" [("qualifier", toJson qualifier),
      ("type_arguments", toJson typeArguments), ("kind", .string kind.name),
      ("arguments", toJson arguments)]
  | _, .localVariables modifiers type declarators =>
    .object [("modifiers", toJson modifiers), ("var_type", toJson type),
      ("declarators", toJson declarators)]
  | _, .forDeclaration declaration => .tagged "Declaration" (toJson declaration)
  | _, .forExpressions expressions => .tagged "Expressions" (toJson expressions)
  | _, .catchClause modifiers types name body =>
    .object [("modifiers", toJson modifiers), ("types", toJson types), ("name", .string name),
      ("block", toJson body)]
  | _, .resourceDeclaration modifiers type name initializer =>
    .variant "Declaration" [("modifiers", toJson modifiers), ("var_type", toJson type),
      ("name", .string name), ("initializer", toJson initializer)]
  | _, .resourceExpression expression => .tagged "Expression" (toJson expression)
  -- Types and patterns
  | _, .primitiveType annotations primitive =>
    .variant "Primitive" [("annotations", toJson annotations),
      ("primitive", .string primitive.name)]
  | _, .voidType => .string "Void"
  | _, .classType segments => .variant "Class" [("segments", toJson segments)]
  | _, .classTypeSegment annotations name typeArguments =>
    .object [("annotations", toJson annotations), ("name", .string name),
      ("type_arguments", toJson typeArguments)]
  | _, .arrayType element dimensions =>
    .variant "Array" [("element", toJson element), ("dimensions", toJson dimensions)]
  | _, .dimension annotations => .object [("annotations", toJson annotations)]
  | _, .wildcardType annotations bound =>
    .variant "Wildcard" [("annotations", toJson annotations), ("bound", toJson bound)]
  | _, .extendsBound type => .tagged "Extends" (toJson type)
  | _, .superBound type => .tagged "Super" (toJson type)
  | _, .intersectionType bounds => .variant "Intersection" [("bounds", toJson bounds)]
  | _, .unionType alternatives => .variant "Union" [("alternatives", toJson alternatives)]
  | _, .varType => .string "Var"
  | _, .typeParameter annotations name bounds =>
    .object [("annotations", toJson annotations), ("name", .string name),
      ("bounds", toJson bounds)]
  | _, .typePattern modifiers type name =>
    .variant "Type" [("modifiers", toJson modifiers), ("pattern_type", toJson type),
      ("name", .string name)]
  | _, .recordPattern type components =>
    .variant "Record" [("record_type", toJson type), ("components", toJson components)]
  | _, .unnamedPattern => .string "Unnamed"
  -- Annotations, modifiers, variables and parameters
  | _, .annotationUse name arguments =>
    .object [("name", .names name), ("arguments", toJson arguments)]
  | _, .noArguments => .string "Marker"
  | _, .singleArgument value => .tagged "Single" (toJson value)
  | _, .namedArguments pairs => .tagged "Named" (toJson pairs)
  | _, .elementExpression expression => .tagged "Expression" (toJson expression)
  | _, .elementAnnotated annotationNode => .tagged "Annotation" (toJson annotationNode)
  | _, .elementArray values => .tagged "Array" (toJson values)
  | _, .elementValuePair name value => .object [("name", .string name), ("value", toJson value)]
  | _, .keywordModifier keyword => .tagged "Keyword" (.string keyword.name)
  | _, .sealedModifier => .string "Sealed"
  | _, .nonSealedModifier => .string "NonSealed"
  | _, .annotatedModifier annotationTree => .tagged "Annotation" (toJson annotationTree)
  | _, .parameter modifiers type varargs name dimensions receiver =>
    .object [("modifiers", toJson modifiers), ("param_type", toJson type),
      ("varargs", .bool varargs), ("name", .string name), ("dimensions", .int dimensions),
      ("receiver", .bool receiver)]
  | _, .variableDeclarator name dimensions initializer =>
    .object [("name", .string name), ("dimensions", .int dimensions),
      ("initializer", toJson initializer)]
  -- Declarations
  | _, .classDeclaration modifiers name typeParameters extended implemented permitted body =>
    .variant "Class" [("modifiers", toJson modifiers), ("name", .string name),
      ("type_parameters", toJson typeParameters), ("extends", toJson extended),
      ("implements", toJson implemented), ("permits", toJson permitted), ("body", toJson body)]
  | _, .interfaceDeclaration modifiers name typeParameters extended permitted body =>
    .variant "Interface" [("modifiers", toJson modifiers), ("name", .string name),
      ("type_parameters", toJson typeParameters), ("extends", toJson extended),
      ("permits", toJson permitted), ("body", toJson body)]
  | _, .annotationTypeDeclaration modifiers name body =>
    .variant "AnnotationType" [("modifiers", toJson modifiers), ("name", .string name),
      ("body", toJson body)]
  | _, .enumDeclaration modifiers name implemented constants body =>
    .variant "Enum" [("modifiers", toJson modifiers), ("name", .string name),
      ("implements", toJson implemented), ("constants", toJson constants), ("body", toJson body)]
  | _, .recordDeclaration modifiers name typeParameters components implemented body =>
    .variant "Record" [("modifiers", toJson modifiers), ("name", .string name),
      ("type_parameters", toJson typeParameters), ("components", toJson components),
      ("implements", toJson implemented), ("body", toJson body)]
  | _, .enumConstant annotations name arguments body =>
    .object [("annotations", toJson annotations), ("name", .string name),
      ("arguments", toJson arguments), ("body", toJson body)]
  | _, .fieldDeclaration modifiers type declarators =>
    .variant "Field" [("modifiers", toJson modifiers), ("field_type", toJson type),
      ("declarators", toJson declarators)]
  | _, .methodDeclaration modifiers typeParameters type name parameters dimensions thrown
      defaultValue body =>
    .variant "Method" [("modifiers", toJson modifiers), ("type_parameters", toJson typeParameters),
      ("return_type", toJson type), ("name", .string name), ("parameters", toJson parameters),
      ("dimensions", .int dimensions), ("throws", toJson thrown),
      ("default_value", toJson defaultValue), ("body", toJson body)]
  | _, .constructorDeclaration modifiers typeParameters name parameters thrown body =>
    .variant "Constructor" [("modifiers", toJson modifiers),
      ("type_parameters", toJson typeParameters), ("name", .string name),
      ("parameters", toJson parameters), ("throws", toJson thrown), ("body", toJson body)]
  | _, .compactConstructor modifiers name body =>
    .variant "CompactConstructor" [("modifiers", toJson modifiers), ("name", .string name),
      ("body", toJson body)]
  | _, .initializerBlock isStatic body =>
    .variant "Initializer" [("is_static", .bool isStatic), ("body", toJson body)]
  | _, .memberType declaration => .tagged "Type" (toJson declaration)
  | _, .emptyMember => .string "Empty"
  -- Modules and compilation units
  | _, .requires modifiers module =>
    .variant "Requires" [("modifiers", .ofList (fun m => .string m.name) modifiers),
      ("module", .names module)]
  | _, .exports package modules =>
    .variant "Exports" [("package", .names package), ("modules", .ofList .names modules)]
  | _, .opens package modules =>
    .variant "Opens" [("package", .names package), ("modules", .ofList .names modules)]
  | _, .uses service => .variant "Uses" [("service", toJson service)]
  | _, .provides service implementations =>
    .variant "Provides" [("service", toJson service), ("implementations", toJson implementations)]
  | _, .moduleDeclaration annotations isOpen name directives =>
    .object [("annotations", toJson annotations), ("open", .bool isOpen), ("name", .names name),
      ("directives", toJson directives)]
  | _, .packageDeclaration annotations name =>
    .object [("annotations", toJson annotations), ("name", .names name)]
  | _, .importDeclaration isStatic name onDemand =>
    .object [("is_static", .bool isStatic), ("name", .names name), ("on_demand", .bool onDemand)]
  | _, .compilationUnit package imports types module =>
    .object [("package", toJson package), ("imports", toJson imports), ("types", toJson types),
      ("module", toJson module)]

end Tree

end JavaSyntax
