import JavaSyntax.Tree.Basic
import JavaSyntax.Tree.Kind

/-!
# Looking at trees

What a reader of a tree asks for: what a node is, which names it uses or declares,
and which parts it has.
-/

namespace JavaSyntax.Tree

variable {f : Form}

/-- The kind of a node. Parts that are no nodes of their own have none. -/
def kind? : {f : Form} → Tree f → Option NodeKind
  | _, .located t _ _ => kind? t
  | _, .literal _ => some .literal
  | _, .simpleName _ => some .simpleName
  | _, .this _ => some .this
  | _, .super _ => some .super
  | _, .fieldAccess .. => some .fieldAccess
  | _, .arrayAccess .. => some .arrayAccess
  | _, .methodCall .. => some .methodCall
  | _, .objectCreation .. => some .objectCreation
  | _, .arrayCreation .. => some .arrayCreation
  | _, .arrayInitializer _ => some .arrayInitializer
  | _, .unary .. => some .unary
  | _, .binary .. => some .binary
  | _, .assignment .. => some .assignment
  | _, .conditional .. => some .conditional
  | _, .instanceOf .. => some .instanceOf
  | _, .cast .. => some .cast
  | _, .lambda .. => some .lambda
  | _, .methodReference .. => some .methodReference
  | _, .classLiteral _ => some .classLiteral
  | _, .parenthesized _ => some .parenthesized
  | _, .switchExpression .. => some .switchExpression
  | _, .switchRule .. => some .switchRule
  | _, .switchGroup .. => some .switchGroup
  | _, .switchLabel .. => some .switchLabel
  | _, .caseConstant _ => some .constantLabel
  | _, .casePattern _ => some .patternLabel
  | _, .caseNull => some .nullLabel
  | _, .caseDefault => some .defaultLabel
  | _, .block _ => some .block
  | _, .blockStatement _ => some .block
  | _, .emptyStatement => some .emptyStatement
  | _, .expressionStatement _ => some .expressionStatement
  | _, .localVariable _ => some .localVariable
  | _, .localClass _ => some .localClass
  | _, .ifStatement .. => some .if
  | _, .whileStatement .. => some .while
  | _, .doStatement .. => some .doWhile
  | _, .forStatement .. => some .for
  | _, .forEachStatement .. => some .forEach
  | _, .switchStatement .. => some .switch
  | _, .returnStatement _ => some .return
  | _, .breakStatement _ => some .break
  | _, .continueStatement _ => some .continue
  | _, .throwStatement _ => some .throw
  | _, .tryStatement .. => some .try
  | _, .synchronizedStatement .. => some .synchronized
  | _, .labeledStatement .. => some .labeled
  | _, .assertStatement .. => some .assert
  | _, .yieldStatement _ => some .yield
  | _, .constructorInvocation .. => some .constructorInvocation
  | _, .catchClause .. => some .catchClause
  | _, .resourceDeclaration .. => some .resource
  | _, .resourceExpression _ => some .resource
  | _, .primitiveType .. => some .primitiveType
  | _, .voidType => some .voidType
  | _, .classType _ => some .classType
  | _, .arrayType .. => some .arrayType
  | _, .wildcardType .. => some .wildcardType
  | _, .intersectionType _ => some .intersectionType
  | _, .unionType _ => some .unionType
  | _, .varType => some .varType
  | _, .typeParameter .. => some .typeParameter
  | _, .typePattern .. => some .typePattern
  | _, .recordPattern .. => some .recordPattern
  | _, .unnamedPattern => some .unnamedPattern
  | _, .annotationUse .. => some .annotationUse
  | _, .keywordModifier _ => some .modifier
  | _, .sealedModifier => some .modifier
  | _, .nonSealedModifier => some .modifier
  | _, .annotatedModifier _ => some .modifier
  | _, .parameter .. => some .parameter
  | _, .variableDeclarator .. => some .variableDeclarator
  | _, .classDeclaration .. => some .classDeclaration
  | _, .interfaceDeclaration .. => some .interfaceDeclaration
  | _, .annotationTypeDeclaration .. => some .annotationTypeDeclaration
  | _, .enumDeclaration .. => some .enumDeclaration
  | _, .recordDeclaration .. => some .recordDeclaration
  | _, .enumConstant .. => some .enumConstant
  | _, .fieldDeclaration .. => some .fieldDeclaration
  | _, .methodDeclaration .. => some .methodDeclaration
  | _, .constructorDeclaration .. => some .constructorDeclaration
  | _, .compactConstructor .. => some .compactConstructorDeclaration
  | _, .initializerBlock .. => some .initializerDeclaration
  | _, .memberType _ => some .memberTypeDeclaration
  | _, .emptyMember => some .emptyDeclaration
  | _, .requires .. => some .requires
  | _, .exports .. => some .exports
  | _, .opens .. => some .opens
  | _, .uses _ => some .uses
  | _, .provides .. => some .provides
  | _, .moduleDeclaration .. => some .moduleDeclaration
  | _, .packageDeclaration .. => some .packageDeclaration
  | _, .importDeclaration .. => some .importDeclaration
  | _, .compilationUnit .. => some .compilationUnit
  | _, _ => none

/-- Whether a node is of a category. -/
def isOf (category : NodeCategory) (t : Tree f) : Bool :=
  t.kind?.any fun kind => kind.category == category

/-! ### Expressions and types -/

/-- The names of `a`, `a.b` or `a.b.c`. Any other expression has none. -/
def qualifiedName? : {f : Form} → Tree f → Option (List String)
  | _, .simpleName name => some [name]
  | _, .fieldAccess target name => (qualifiedName? target).map (· ++ [name])
  | _, .located t _ _ => qualifiedName? t
  | _, _ => none

/-- Whether a type is the inferred type of a local variable. -/
def isVar : Tree .type → Bool
  | .varType => true
  | _ => false

def isPrimitive : Tree .type → Bool
  | .primitiveType .. => true
  | _ => false

def segmentName : Tree .classTypeSegment → String
  | .classTypeSegment _ name _ => name

/-- The names of a class type, outermost first, without annotations and arguments. -/
def classNames? : Tree .type → Option (List String)
  | .classType segments => some (segments.toList.map segmentName)
  | _ => none

/-- The last name of a class type. -/
def simpleTypeName? (t : Tree .type) : Option String := t.classNames?.bind (·.getLast?)

/-- The dotted name of a class type. -/
def qualifiedTypeName? (t : Tree .type) : Option String := t.classNames?.map (".".intercalate ·)

/-- The name that a type pattern binds. -/
def binding? : Tree .pattern → Option String
  | .typePattern _ _ name => some name
  | _ => none

/-! ### Statements -/

/-- Whether the type of a declared local variable is inferred. -/
def declaresVar : Tree .statement → Bool
  | .localVariable (.localVariables _ type _) => type.inner.isVar
  | _ => false

/-- Whether a switch label is a lone `default`. -/
def isDefault : Tree .switchLabel → Bool
  | .switchLabel labels _ =>
    match labels.toList.map inner with
    | [.caseDefault] => true
    | _ => false

/-- Whether a switch has no rules and no groups. -/
def hasNoCases : Tree .switchBody → Bool
  | .rules cases => cases.isEmpty
  | .groups cases => cases.isEmpty

/-! ### Declarations -/

def isAnnotated : Tree .modifier → Bool
  | .annotatedModifier _ => true
  | _ => false

/-- Whether a keyword is among some modifiers. -/
def hasModifier (modifiers : Tree (.list (.node .modifier))) (keyword : Keyword) : Bool :=
  modifiers.toList.any fun m =>
    match m.inner with
    | .keywordModifier k => k == keyword
    | _ => false

/-- Whether the type of a parameter is inferred. -/
def hasVarType : Tree .parameter → Bool
  | .parameter _ paramType _ _ _ _ => paramType.inner.isVar

/-- The name of a declared type. -/
def declaredName : Tree .typeDeclaration → String
  | .classDeclaration _ name _ _ _ _ _ => name
  | .interfaceDeclaration _ name _ _ _ _ => name
  | .annotationTypeDeclaration _ name _ => name
  | .enumDeclaration _ name _ _ _ => name
  | .recordDeclaration _ name _ _ _ _ => name

/-- The modifiers of a declared type. -/
def modifiers : Tree .typeDeclaration → Tree (.list (.node .modifier))
  | .classDeclaration modifiers _ _ _ _ _ _ => modifiers
  | .interfaceDeclaration modifiers _ _ _ _ _ => modifiers
  | .annotationTypeDeclaration modifiers _ _ => modifiers
  | .enumDeclaration modifiers _ _ _ _ => modifiers
  | .recordDeclaration modifiers _ _ _ _ _ => modifiers

/-- The members of a declared type. -/
def members : Tree .typeDeclaration → Tree (.list (.node .member))
  | .classDeclaration _ _ _ _ _ _ body => body
  | .interfaceDeclaration _ _ _ _ _ body => body
  | .annotationTypeDeclaration _ _ body => body
  | .enumDeclaration _ _ _ _ body => body
  | .recordDeclaration _ _ _ _ _ body => body

/-- The name of a member that has one of its own. -/
def memberName? : Tree .member → Option String
  | .methodDeclaration _ _ _ name _ _ _ _ _ => some name
  | .constructorDeclaration _ _ name _ _ _ => some name
  | .compactConstructor _ name _ => some name
  | .memberType declaration => some declaration.inner.declaredName
  | _ => none

end JavaSyntax.Tree
