/-!
# Kinds of nodes and releases of Java

Every node of a tree has a kind, every kind belongs to a category, and every node
needs some release of Java at least.
-/

namespace JavaSyntax

/-- The releases of Java that introduced constructs, oldest first. -/
inductive JavaVersion where
  | v1 | v1_4 | v5 | v7 | v8 | v9 | v10 | v11 | v14 | v15 | v16 | v17 | v21 | v22
deriving DecidableEq, Repr

namespace JavaVersion

/-- The number of a release. -/
def text : JavaVersion → String
  | .v1 => "1.0"
  | .v1_4 => "1.4"
  | .v5 => "5"
  | .v7 => "7"
  | .v8 => "8"
  | .v9 => "9"
  | .v10 => "10"
  | .v11 => "11"
  | .v14 => "14"
  | .v15 => "15"
  | .v16 => "16"
  | .v17 => "17"
  | .v21 => "21"
  | .v22 => "22"

/-- The place of a release in the order of time. -/
def rank : JavaVersion → Nat
  | .v1 => 0
  | .v1_4 => 1
  | .v5 => 2
  | .v7 => 3
  | .v8 => 4
  | .v9 => 5
  | .v10 => 6
  | .v11 => 7
  | .v14 => 8
  | .v15 => 9
  | .v16 => 10
  | .v17 => 11
  | .v21 => 12
  | .v22 => 13

/-- What a reader calls a release. -/
def display (v : JavaVersion) : String := "Java " ++ v.text

/-- The later of two releases. -/
def latest (a b : JavaVersion) : JavaVersion := if a.rank ≤ b.rank then b else a

instance : Max JavaVersion := ⟨latest⟩

end JavaVersion

/-- The categories of nodes; support nodes only stand inside other nodes. -/
inductive NodeCategory where
  | expression | statement | type | pattern | directive | caseLabel | declaration | support
deriving DecidableEq, Repr

namespace NodeCategory

def name : NodeCategory → String
  | .expression => "Expression"
  | .statement => "Statement"
  | .type => "Type"
  | .pattern => "Pattern"
  | .directive => "Directive"
  | .caseLabel => "CaseLabel"
  | .declaration => "Declaration"
  | .support => "Support"

end NodeCategory

/-- What a node is. -/
inductive NodeKind where
  | literal | simpleName | this | super | fieldAccess | arrayAccess | methodCall | objectCreation
  | arrayCreation | arrayInitializer | unary | binary | assignment | conditional | instanceOf
  | cast | lambda | methodReference | classLiteral | parenthesized | switchExpression | block
  | emptyStatement | expressionStatement | localVariable | localClass | if | while | doWhile
  | for | forEach | switch | return | break | continue | throw | try | synchronized | labeled
  | assert | yield | constructorInvocation | primitiveType | voidType | classType | arrayType
  | wildcardType | intersectionType | unionType | varType | typePattern | recordPattern
  | unnamedPattern | requires | exports | opens | uses | provides | constantLabel | patternLabel
  | nullLabel | defaultLabel | classDeclaration | interfaceDeclaration
  | annotationTypeDeclaration | enumDeclaration | recordDeclaration | fieldDeclaration
  | methodDeclaration | constructorDeclaration | compactConstructorDeclaration
  | initializerDeclaration | memberTypeDeclaration | emptyDeclaration | enumConstant
  | packageDeclaration | importDeclaration | moduleDeclaration | annotationUse | modifier
  | parameter | variableDeclarator | catchClause | resource | switchLabel | switchRule
  | switchGroup | typeParameter | compilationUnit
deriving DecidableEq, Repr

namespace NodeKind

def name : NodeKind → String
  | .literal => "Literal"
  | .simpleName => "Name"
  | .this => "This"
  | .super => "Super"
  | .fieldAccess => "FieldAccess"
  | .arrayAccess => "ArrayAccess"
  | .methodCall => "MethodCall"
  | .objectCreation => "ObjectCreation"
  | .arrayCreation => "ArrayCreation"
  | .arrayInitializer => "ArrayInitializer"
  | .unary => "Unary"
  | .binary => "Binary"
  | .assignment => "Assignment"
  | .conditional => "Conditional"
  | .instanceOf => "InstanceOf"
  | .cast => "Cast"
  | .lambda => "Lambda"
  | .methodReference => "MethodReference"
  | .classLiteral => "ClassLiteral"
  | .parenthesized => "Parenthesized"
  | .switchExpression => "SwitchExpression"
  | .block => "Block"
  | .emptyStatement => "EmptyStatement"
  | .expressionStatement => "ExpressionStatement"
  | .localVariable => "LocalVariable"
  | .localClass => "LocalClass"
  | .if => "If"
  | .while => "While"
  | .doWhile => "DoWhile"
  | .for => "For"
  | .forEach => "ForEach"
  | .switch => "Switch"
  | .return => "Return"
  | .break => "Break"
  | .continue => "Continue"
  | .throw => "Throw"
  | .try => "Try"
  | .synchronized => "Synchronized"
  | .labeled => "Labeled"
  | .assert => "Assert"
  | .yield => "Yield"
  | .constructorInvocation => "ConstructorInvocation"
  | .primitiveType => "PrimitiveType"
  | .voidType => "VoidType"
  | .classType => "ClassType"
  | .arrayType => "ArrayType"
  | .wildcardType => "WildcardType"
  | .intersectionType => "IntersectionType"
  | .unionType => "UnionType"
  | .varType => "VarType"
  | .typePattern => "TypePattern"
  | .recordPattern => "RecordPattern"
  | .unnamedPattern => "UnnamedPattern"
  | .requires => "Requires"
  | .exports => "Exports"
  | .opens => "Opens"
  | .uses => "Uses"
  | .provides => "Provides"
  | .constantLabel => "ConstantLabel"
  | .patternLabel => "PatternLabel"
  | .nullLabel => "NullLabel"
  | .defaultLabel => "DefaultLabel"
  | .classDeclaration => "ClassDeclaration"
  | .interfaceDeclaration => "InterfaceDeclaration"
  | .annotationTypeDeclaration => "AnnotationTypeDeclaration"
  | .enumDeclaration => "EnumDeclaration"
  | .recordDeclaration => "RecordDeclaration"
  | .fieldDeclaration => "FieldDeclaration"
  | .methodDeclaration => "MethodDeclaration"
  | .constructorDeclaration => "ConstructorDeclaration"
  | .compactConstructorDeclaration => "CompactConstructorDeclaration"
  | .initializerDeclaration => "InitializerDeclaration"
  | .memberTypeDeclaration => "MemberTypeDeclaration"
  | .emptyDeclaration => "EmptyDeclaration"
  | .enumConstant => "EnumConstant"
  | .packageDeclaration => "PackageDeclaration"
  | .importDeclaration => "ImportDeclaration"
  | .moduleDeclaration => "ModuleDeclaration"
  | .annotationUse => "Annotation"
  | .modifier => "Modifier"
  | .parameter => "Parameter"
  | .variableDeclarator => "VariableDeclarator"
  | .catchClause => "CatchClause"
  | .resource => "Resource"
  | .switchLabel => "SwitchLabel"
  | .switchRule => "SwitchRule"
  | .switchGroup => "SwitchGroup"
  | .typeParameter => "TypeParameter"
  | .compilationUnit => "CompilationUnit"

/-- The category of a kind. -/
def category : NodeKind → NodeCategory
  | .literal | .simpleName | .this | .super | .fieldAccess | .arrayAccess | .methodCall
  | .objectCreation | .arrayCreation | .arrayInitializer | .unary | .binary | .assignment
  | .conditional | .instanceOf | .cast | .lambda | .methodReference | .classLiteral
  | .parenthesized | .switchExpression => .expression
  | .block | .emptyStatement | .expressionStatement | .localVariable | .localClass | .if
  | .while | .doWhile | .for | .forEach | .switch | .return | .break | .continue | .throw
  | .try | .synchronized | .labeled | .assert | .yield | .constructorInvocation => .statement
  | .primitiveType | .voidType | .classType | .arrayType | .wildcardType
  | .intersectionType | .unionType | .varType => .type
  | .typePattern | .recordPattern | .unnamedPattern => .pattern
  | .requires | .exports | .opens | .uses | .provides => .directive
  | .constantLabel | .patternLabel | .nullLabel | .defaultLabel => .caseLabel
  | .classDeclaration | .interfaceDeclaration | .annotationTypeDeclaration
  | .enumDeclaration | .recordDeclaration | .fieldDeclaration | .methodDeclaration
  | .constructorDeclaration | .compactConstructorDeclaration | .initializerDeclaration
  | .memberTypeDeclaration | .emptyDeclaration | .enumConstant | .packageDeclaration
  | .importDeclaration | .moduleDeclaration => .declaration
  | .annotationUse | .modifier | .parameter | .variableDeclarator | .catchClause | .resource
  | .switchLabel | .switchRule | .switchGroup | .typeParameter | .compilationUnit => .support

end NodeKind

end JavaSyntax
