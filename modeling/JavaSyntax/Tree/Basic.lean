import JavaSyntax.Text.Span
import JavaSyntax.Token.Basic
import JavaSyntax.Tree.Operator

/-!
# Syntax trees

All trees of Java syntax form one family of types, indexed by what a tree is: an
expression, a statement, a list of members, and so on. Lists, missing parts and the
wrapper that adds a place belong to the family, so a function on trees is one
recursion on the structure, and a law about them one induction.
-/

namespace JavaSyntax

/-- What a tree can be. -/
inductive Form where
  | expression | instanceOfTarget | lambdaParameters | lambdaBody | referenceTarget
  | switchBody | switchRule | ruleBody | switchGroup | switchLabel | caseLabel
  | statement | localVariable | forInit | catchClause | resource | block
  | type | classTypeSegment | dimension | wildcardBound | typeParameter | pattern
  | annotationUse | annotationArguments | elementValue | elementValuePair | modifier
  | parameter | variableDeclarator | typeDeclaration | enumConstant | member
  | directive | moduleDeclaration | packageDeclaration | importDeclaration | compilationUnit
  /-- Trees of one form, in order. -/
  | list (f : Form)
  /-- A tree that may be missing. -/
  | option (f : Form)
  /-- A tree with its span and the text under it. -/
  | node (f : Form)
deriving DecidableEq, Repr

/-- A literal as it is spelt, and what it denotes. -/
structure LiteralText where
  kind : LiteralKind
  value : Option LiteralValue
  text : String
deriving Repr

/-- Which constructor a constructor calls first: one of its own class or one of the
class above. -/
inductive ConstructorCall where
  | this | super
deriving DecidableEq, Repr

/-- The modifiers of a `requires` directive. -/
inductive RequiresModifier where
  | transitive | static
deriving DecidableEq, Repr

/-- The trees of a form. -/
inductive Tree : Form → Type where
  | nil {f : Form} : Tree (.list f)
  | cons {f : Form} (head : Tree f) (tail : Tree (.list f)) : Tree (.list f)
  | absent {f : Form} : Tree (.option f)
  | present {f : Form} (tree : Tree f) : Tree (.option f)
  | located {f : Form} (tree : Tree f) (span : Span) (source : String) : Tree (.node f)
  -- Expressions
  | literal (literal : LiteralText) : Tree .expression
  | simpleName (name : String) : Tree .expression
  | this (qualifier : Tree (.option (.node .expression))) : Tree .expression
  | super (qualifier : Tree (.option (.node .expression))) : Tree .expression
  | fieldAccess (target : Tree (.node .expression)) (name : String) : Tree .expression
  | arrayAccess (array index : Tree (.node .expression)) : Tree .expression
  | methodCall (target : Tree (.option (.node .expression)))
      (typeArguments : Tree (.list (.node .type))) (name : String)
      (arguments : Tree (.list (.node .expression))) : Tree .expression
  | objectCreation (outer : Tree (.option (.node .expression)))
      (typeArguments : Tree (.list (.node .type))) (classType : Tree (.node .type))
      (arguments : Tree (.list (.node .expression)))
      (body : Tree (.option (.list (.node .member)))) : Tree .expression
  /-- The annotations stand before each `[`, those of the sized dimensions first. -/
  | arrayCreation (element : Tree (.node .type)) (dimensions : Tree (.list (.node .expression)))
      (extraDimensions : Nat) (annotations : Tree (.list (.list (.node .annotationUse))))
      (initializer : Tree (.option (.node .expression))) : Tree .expression
  | arrayInitializer (elements : Tree (.list (.node .expression))) : Tree .expression
  | unary (operator : UnaryOperator) (operand : Tree (.node .expression)) : Tree .expression
  | binary (left : Tree (.node .expression)) (operator : BinaryOperator)
      (right : Tree (.node .expression)) : Tree .expression
  | assignment (target : Tree (.node .expression)) (operator : AssignmentOperator)
      (value : Tree (.node .expression)) : Tree .expression
  | conditional (condition thenValue elseValue : Tree (.node .expression)) : Tree .expression
  | instanceOf (expression : Tree (.node .expression)) (target : Tree .instanceOfTarget) :
      Tree .expression
  | cast (targetType : Tree (.node .type)) (expression : Tree (.node .expression)) :
      Tree .expression
  | lambda (parameters : Tree .lambdaParameters) (body : Tree .lambdaBody) : Tree .expression
  /-- The name is `new` for a reference to a constructor. -/
  | methodReference (target : Tree .referenceTarget) (typeArguments : Tree (.list (.node .type)))
      (name : String) : Tree .expression
  | classLiteral (classType : Tree (.node .type)) : Tree .expression
  | parenthesized (expression : Tree (.node .expression)) : Tree .expression
  | switchExpression (selector : Tree (.node .expression)) (body : Tree .switchBody) :
      Tree .expression
  -- Parts of expressions
  | testType (type : Tree (.node .type)) : Tree .instanceOfTarget
  | testPattern (pattern : Tree (.node .pattern)) : Tree .instanceOfTarget
  | implicitParameters (names : List String) (parenthesized : Bool) : Tree .lambdaParameters
  | explicitParameters (parameters : Tree (.list (.node .parameter))) : Tree .lambdaParameters
  | lambdaExpression (expression : Tree (.node .expression)) : Tree .lambdaBody
  | lambdaBlock (block : Tree (.node .block)) : Tree .lambdaBody
  | expressionTarget (expression : Tree (.node .expression)) : Tree .referenceTarget
  | typeTarget (type : Tree (.node .type)) : Tree .referenceTarget
  -- Switches
  | rules (rules : Tree (.list (.node .switchRule))) : Tree .switchBody
  | groups (groups : Tree (.list (.node .switchGroup))) : Tree .switchBody
  | switchRule (label : Tree (.node .switchLabel)) (body : Tree .ruleBody) : Tree .switchRule
  | ruleExpression (expression : Tree (.node .expression)) : Tree .ruleBody
  | ruleBlock (block : Tree (.node .block)) : Tree .ruleBody
  | ruleThrow (statement : Tree (.node .statement)) : Tree .ruleBody
  | switchGroup (labels : Tree (.list (.node .switchLabel)))
      (statements : Tree (.list (.node .statement))) : Tree .switchGroup
  | switchLabel (labels : Tree (.list (.node .caseLabel)))
      (guard : Tree (.option (.node .expression))) : Tree .switchLabel
  | caseConstant (expression : Tree (.node .expression)) : Tree .caseLabel
  | casePattern (pattern : Tree (.node .pattern)) : Tree .caseLabel
  | caseNull : Tree .caseLabel
  | caseDefault : Tree .caseLabel
  -- Statements
  | block (statements : Tree (.list (.node .statement))) : Tree .block
  | blockStatement (block : Tree .block) : Tree .statement
  | emptyStatement : Tree .statement
  | expressionStatement (expression : Tree (.node .expression)) : Tree .statement
  | localVariable (declaration : Tree .localVariable) : Tree .statement
  | localClass (declaration : Tree (.node .typeDeclaration)) : Tree .statement
  | ifStatement (condition : Tree (.node .expression)) (thenBranch : Tree (.node .statement))
      (elseBranch : Tree (.option (.node .statement))) : Tree .statement
  | whileStatement (condition : Tree (.node .expression)) (body : Tree (.node .statement)) :
      Tree .statement
  | doStatement (body : Tree (.node .statement)) (condition : Tree (.node .expression)) :
      Tree .statement
  | forStatement (init : Tree (.option .forInit)) (condition : Tree (.option (.node .expression)))
      (update : Tree (.list (.node .expression))) (body : Tree (.node .statement)) :
      Tree .statement
  | forEachStatement (modifiers : Tree (.list (.node .modifier))) (varType : Tree (.node .type))
      (name : String) (iterable : Tree (.node .expression)) (body : Tree (.node .statement)) :
      Tree .statement
  | switchStatement (selector : Tree (.node .expression)) (body : Tree .switchBody) :
      Tree .statement
  | returnStatement (value : Tree (.option (.node .expression))) : Tree .statement
  | breakStatement (label : Option String) : Tree .statement
  | continueStatement (label : Option String) : Tree .statement
  | throwStatement (thrown : Tree (.node .expression)) : Tree .statement
  | tryStatement (resources : Tree (.list (.node .resource))) (block : Tree (.node .block))
      (catches : Tree (.list (.node .catchClause))) (finallyBlock : Tree (.option (.node .block))) :
      Tree .statement
  | synchronizedStatement (lock : Tree (.node .expression)) (block : Tree (.node .block)) :
      Tree .statement
  | labeledStatement (label : String) (statement : Tree (.node .statement)) : Tree .statement
  | assertStatement (condition : Tree (.node .expression))
      (message : Tree (.option (.node .expression))) : Tree .statement
  | yieldStatement (value : Tree (.node .expression)) : Tree .statement
  | constructorInvocation (qualifier : Tree (.option (.node .expression)))
      (typeArguments : Tree (.list (.node .type))) (kind : ConstructorCall)
      (arguments : Tree (.list (.node .expression))) : Tree .statement
  -- Parts of statements
  | localVariables (modifiers : Tree (.list (.node .modifier))) (varType : Tree (.node .type))
      (declarators : Tree (.list (.node .variableDeclarator))) : Tree .localVariable
  | forDeclaration (declaration : Tree .localVariable) : Tree .forInit
  | forExpressions (expressions : Tree (.list (.node .expression))) : Tree .forInit
  | catchClause (modifiers : Tree (.list (.node .modifier))) (types : Tree (.list (.node .type)))
      (name : String) (block : Tree (.node .block)) : Tree .catchClause
  | resourceDeclaration (modifiers : Tree (.list (.node .modifier)))
      (varType : Tree (.node .type)) (name : String) (initializer : Tree (.node .expression)) :
      Tree .resource
  | resourceExpression (expression : Tree (.node .expression)) : Tree .resource
  -- Types
  | primitiveType (annotations : Tree (.list (.node .annotationUse)))
      (primitive : PrimitiveType) : Tree .type
  | voidType : Tree .type
  | classType (segments : Tree (.list .classTypeSegment)) : Tree .type
  | arrayType (element : Tree (.node .type)) (dimensions : Tree (.list .dimension)) : Tree .type
  | wildcardType (annotations : Tree (.list (.node .annotationUse)))
      (bound : Tree (.option .wildcardBound)) : Tree .type
  | intersectionType (bounds : Tree (.list (.node .type))) : Tree .type
  | unionType (alternatives : Tree (.list (.node .type))) : Tree .type
  | varType : Tree .type
  /-- No list of arguments and the empty list `<>` are different things. -/
  | classTypeSegment (annotations : Tree (.list (.node .annotationUse))) (name : String)
      (typeArguments : Tree (.option (.list (.node .type)))) : Tree .classTypeSegment
  | dimension (annotations : Tree (.list (.node .annotationUse))) : Tree .dimension
  | extendsBound (type : Tree (.node .type)) : Tree .wildcardBound
  | superBound (type : Tree (.node .type)) : Tree .wildcardBound
  | typeParameter (annotations : Tree (.list (.node .annotationUse))) (name : String)
      (bounds : Tree (.list (.node .type))) : Tree .typeParameter
  -- Patterns
  | typePattern (modifiers : Tree (.list (.node .modifier))) (patternType : Tree (.node .type))
      (name : String) : Tree .pattern
  | recordPattern (recordType : Tree (.node .type)) (components : Tree (.list (.node .pattern))) :
      Tree .pattern
  | unnamedPattern : Tree .pattern
  -- Annotations and modifiers
  | annotationUse (name : List String) (arguments : Tree .annotationArguments) :
      Tree .annotationUse
  | noArguments : Tree .annotationArguments
  | singleArgument (value : Tree .elementValue) : Tree .annotationArguments
  | namedArguments (pairs : Tree (.list .elementValuePair)) : Tree .annotationArguments
  | elementExpression (expression : Tree (.node .expression)) : Tree .elementValue
  | elementAnnotated (annotationNode : Tree (.node .annotationUse)) : Tree .elementValue
  | elementArray (values : Tree (.list .elementValue)) : Tree .elementValue
  | elementValuePair (name : String) (value : Tree .elementValue) : Tree .elementValuePair
  | keywordModifier (keyword : Keyword) : Tree .modifier
  | sealedModifier : Tree .modifier
  | nonSealedModifier : Tree .modifier
  | annotatedModifier (annotationTree : Tree .annotationUse) : Tree .modifier
  -- Variables and parameters
  /-- The name of a receiver parameter is its form of `this`. -/
  | parameter (modifiers : Tree (.list (.node .modifier))) (paramType : Tree (.node .type))
      (varargs : Bool) (name : String) (dimensions : Nat) (receiver : Bool) : Tree .parameter
  | variableDeclarator (name : String) (dimensions : Nat)
      (initializer : Tree (.option (.node .expression))) : Tree .variableDeclarator
  -- Declarations of types and their members
  | classDeclaration (modifiers : Tree (.list (.node .modifier))) (name : String)
      (typeParameters : Tree (.list (.node .typeParameter)))
      (extended : Tree (.option (.node .type))) (implemented : Tree (.list (.node .type)))
      (permitted : Tree (.list (.node .type))) (body : Tree (.list (.node .member))) :
      Tree .typeDeclaration
  | interfaceDeclaration (modifiers : Tree (.list (.node .modifier))) (name : String)
      (typeParameters : Tree (.list (.node .typeParameter)))
      (extended : Tree (.list (.node .type))) (permitted : Tree (.list (.node .type)))
      (body : Tree (.list (.node .member))) : Tree .typeDeclaration
  | annotationTypeDeclaration (modifiers : Tree (.list (.node .modifier))) (name : String)
      (body : Tree (.list (.node .member))) : Tree .typeDeclaration
  | enumDeclaration (modifiers : Tree (.list (.node .modifier))) (name : String)
      (implemented : Tree (.list (.node .type))) (constants : Tree (.list (.node .enumConstant)))
      (body : Tree (.list (.node .member))) : Tree .typeDeclaration
  | recordDeclaration (modifiers : Tree (.list (.node .modifier))) (name : String)
      (typeParameters : Tree (.list (.node .typeParameter)))
      (components : Tree (.list (.node .parameter))) (implemented : Tree (.list (.node .type)))
      (body : Tree (.list (.node .member))) : Tree .typeDeclaration
  | enumConstant (annotations : Tree (.list (.node .annotationUse))) (name : String)
      (arguments : Tree (.option (.list (.node .expression))))
      (body : Tree (.option (.list (.node .member)))) : Tree .enumConstant
  | fieldDeclaration (modifiers : Tree (.list (.node .modifier))) (fieldType : Tree (.node .type))
      (declarators : Tree (.list (.node .variableDeclarator))) : Tree .member
  | methodDeclaration (modifiers : Tree (.list (.node .modifier)))
      (typeParameters : Tree (.list (.node .typeParameter))) (returnType : Tree (.node .type))
      (name : String) (parameters : Tree (.list (.node .parameter))) (dimensions : Nat)
      (thrown : Tree (.list (.node .type))) (defaultValue : Tree (.option .elementValue))
      (body : Tree (.option (.node .block))) : Tree .member
  | constructorDeclaration (modifiers : Tree (.list (.node .modifier)))
      (typeParameters : Tree (.list (.node .typeParameter))) (name : String)
      (parameters : Tree (.list (.node .parameter))) (thrown : Tree (.list (.node .type)))
      (body : Tree (.node .block)) : Tree .member
  | compactConstructor (modifiers : Tree (.list (.node .modifier))) (name : String)
      (body : Tree (.node .block)) : Tree .member
  | initializerBlock (isStatic : Bool) (body : Tree (.node .block)) : Tree .member
  | memberType (declaration : Tree (.node .typeDeclaration)) : Tree .member
  | emptyMember : Tree .member
  -- Modules and compilation units
  | requires (modifiers : List RequiresModifier) (module : List String) : Tree .directive
  | exports (package : List String) (modules : List (List String)) : Tree .directive
  | opens (package : List String) (modules : List (List String)) : Tree .directive
  | uses (service : Tree (.node .type)) : Tree .directive
  | provides (service : Tree (.node .type)) (implementations : Tree (.list (.node .type))) :
      Tree .directive
  | moduleDeclaration (annotations : Tree (.list (.node .annotationUse))) (isOpen : Bool)
      (name : List String) (directives : Tree (.list (.node .directive))) :
      Tree .moduleDeclaration
  | packageDeclaration (annotations : Tree (.list (.node .annotationUse)))
      (name : List String) : Tree .packageDeclaration
  | importDeclaration (isStatic : Bool) (name : List String) (onDemand : Bool) :
      Tree .importDeclaration
  | compilationUnit (package : Tree (.option (.node .packageDeclaration)))
      (imports : Tree (.list (.node .importDeclaration)))
      (types : Tree (.list (.node .typeDeclaration)))
      (module : Tree (.option (.node .moduleDeclaration))) : Tree .compilationUnit

/-- A tree with its span and source. -/
abbrev Node (f : Form) := Tree (.node f)

namespace Form

/-- What a list, an optional part or a node holds. -/
def item : Form → Form
  | .list f => f
  | .option f => f
  | .node f => f
  | f => f

end Form

namespace Tree

variable {f : Form}

/-- What a list, an optional part or a node holds, in order. -/
def items : {f : Form} → Tree f → List (Tree f.item)
  | _, .cons head tail => head :: items tail
  | _, .present t => [t]
  | _, .located t _ _ => [t]
  | _, _ => []

/-- The trees of a list. -/
def toList (t : Tree (.list f)) : List (Tree f) := t.items

/-- The tree of an optional part. -/
def toOption : Tree (.option f) → Option (Tree f)
  | .absent => none
  | .present t => some t

/-- The list of some trees. -/
def ofList : List (Tree f) → Tree (.list f)
  | [] => .nil
  | t :: ts => .cons t (ofList ts)

/-- The optional part with or without a tree. -/
def ofOption : Option (Tree f) → Tree (.option f)
  | none => .absent
  | some t => .present t

def isEmpty : Tree (.list f) → Bool
  | .nil => true
  | .cons .. => false

def isPresent : Tree (.option f) → Bool
  | .absent => false
  | .present _ => true

/-- The tree inside a node. -/
def inner : Node f → Tree f
  | .located t _ _ => t

/-- The span of a node. -/
def span : Node f → Span
  | .located _ span _ => span

/-- The text that a node was read from. -/
def source : Node f → String
  | .located _ _ source => source

@[simp] theorem toList_nil : (Tree.nil (f := f)).toList = [] := rfl

@[simp] theorem toList_cons (t : Tree f) (ts : Tree (.list f)) :
    (Tree.cons t ts).toList = t :: ts.toList := rfl

@[simp] theorem toList_ofList (ts : List (Tree f)) : (ofList ts).toList = ts := by
  induction ts with
  | nil => rfl
  | cons t ts ih => simp [ofList, ih]

@[simp] theorem toOption_ofOption (t : Option (Tree f)) : (ofOption t).toOption = t := by
  cases t <;> rfl

end Tree

end JavaSyntax
