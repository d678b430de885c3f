import JavaSyntax.Tree.View

/-!
# The nodes of a tree

Some of the trees inside a tree are nodes, with a span and a source text, and others only
group nodes. The parts of a tree are the nodes that are reached first on the way down, in
the order in which the tree holds them: the children of a node are the parts of the tree
inside it, and the nodes of a tree are its parts, their children, and so on.
-/

namespace JavaSyntax

/-- A node of any form. -/
structure Part where
  form : Form
  node : Node form

namespace Part

def span (p : Part) : Span := p.node.span

def source (p : Part) : String := p.node.source

/-- Neither of two nodes reaches into the other. -/
def Apart (p q : Part) : Prop :=
  p.span.stop.offset ≤ q.span.start.offset ∨ q.span.stop.offset ≤ p.span.start.offset

/-- Being apart goes both ways. -/
theorem Apart.symm {p q : Part} (h : p.Apart q) : q.Apart p := Or.symm h

end Part

namespace Tree

/-- The outermost nodes of a tree. -/
def parts : {f : Form} → Tree f → List Part
  | _, .located tree span source => [⟨_, .located tree span source⟩]
  | _, .cons head tail => head.parts ++ tail.parts
  | _, .present tree => tree.parts
  -- Expressions
  | _, .this qualifier => qualifier.parts
  | _, .super qualifier => qualifier.parts
  | _, .fieldAccess target _ => target.parts
  | _, .arrayAccess array index => array.parts ++ index.parts
  | _, .methodCall target typeArguments _ arguments =>
    target.parts ++ typeArguments.parts ++ arguments.parts
  | _, .objectCreation outer typeArguments type arguments body =>
    outer.parts ++ typeArguments.parts ++ type.parts ++ arguments.parts ++ body.parts
  | _, .arrayCreation element dimensions _ annotations initializer =>
    element.parts ++ dimensions.parts ++ annotations.parts ++ initializer.parts
  | _, .arrayInitializer elements => elements.parts
  | _, .unary _ operand => operand.parts
  | _, .binary left _ right => left.parts ++ right.parts
  | _, .assignment target _ value => target.parts ++ value.parts
  | _, .conditional condition thenValue elseValue =>
    condition.parts ++ thenValue.parts ++ elseValue.parts
  | _, .instanceOf expression target => expression.parts ++ target.parts
  | _, .cast targetType expression => targetType.parts ++ expression.parts
  | _, .lambda parameters body => parameters.parts ++ body.parts
  | _, .methodReference target typeArguments _ => target.parts ++ typeArguments.parts
  | _, .classLiteral type => type.parts
  | _, .parenthesized expression => expression.parts
  | _, .switchExpression selector body => selector.parts ++ body.parts
  -- Parts of expressions
  | _, .testType type => type.parts
  | _, .testPattern pattern => pattern.parts
  | _, .explicitParameters parameters => parameters.parts
  | _, .lambdaExpression expression => expression.parts
  | _, .lambdaBlock body => body.parts
  | _, .expressionTarget expression => expression.parts
  | _, .typeTarget type => type.parts
  -- Switches
  | _, .rules cases => cases.parts
  | _, .groups cases => cases.parts
  | _, .switchRule label body => label.parts ++ body.parts
  | _, .ruleExpression expression => expression.parts
  | _, .ruleBlock body => body.parts
  | _, .ruleThrow statement => statement.parts
  | _, .switchGroup labels statements => labels.parts ++ statements.parts
  | _, .switchLabel labels guard => labels.parts ++ guard.parts
  | _, .caseConstant expression => expression.parts
  | _, .casePattern pattern => pattern.parts
  -- Statements
  | _, .block statements => statements.parts
  | _, .blockStatement body => body.parts
  | _, .expressionStatement expression => expression.parts
  | _, .localVariable declaration => declaration.parts
  | _, .localClass declaration => declaration.parts
  | _, .ifStatement condition thenBranch elseBranch =>
    condition.parts ++ thenBranch.parts ++ elseBranch.parts
  | _, .whileStatement condition body => condition.parts ++ body.parts
  | _, .doStatement body condition => body.parts ++ condition.parts
  | _, .forStatement init condition update body =>
    init.parts ++ condition.parts ++ update.parts ++ body.parts
  | _, .forEachStatement modifiers type _ iterable body =>
    modifiers.parts ++ type.parts ++ iterable.parts ++ body.parts
  | _, .switchStatement selector body => selector.parts ++ body.parts
  | _, .returnStatement value => value.parts
  | _, .throwStatement thrown => thrown.parts
  | _, .tryStatement resources body catches finallyBlock =>
    resources.parts ++ body.parts ++ catches.parts ++ finallyBlock.parts
  | _, .synchronizedStatement lock body => lock.parts ++ body.parts
  | _, .labeledStatement _ statement => statement.parts
  | _, .assertStatement condition message => condition.parts ++ message.parts
  | _, .yieldStatement value => value.parts
  | _, .constructorInvocation qualifier typeArguments _ arguments =>
    qualifier.parts ++ typeArguments.parts ++ arguments.parts
  -- Parts of statements
  | _, .localVariables modifiers type declarators =>
    modifiers.parts ++ type.parts ++ declarators.parts
  | _, .forDeclaration declaration => declaration.parts
  | _, .forExpressions expressions => expressions.parts
  | _, .catchClause modifiers types _ body => modifiers.parts ++ types.parts ++ body.parts
  | _, .resourceDeclaration modifiers type _ initializer =>
    modifiers.parts ++ type.parts ++ initializer.parts
  | _, .resourceExpression expression => expression.parts
  -- Types
  | _, .primitiveType annotations _ => annotations.parts
  | _, .classType segments => segments.parts
  | _, .arrayType element dimensions => element.parts ++ dimensions.parts
  | _, .wildcardType annotations bound => annotations.parts ++ bound.parts
  | _, .intersectionType bounds => bounds.parts
  | _, .unionType alternatives => alternatives.parts
  | _, .classTypeSegment annotations _ typeArguments => annotations.parts ++ typeArguments.parts
  | _, .dimension annotations => annotations.parts
  | _, .extendsBound type => type.parts
  | _, .superBound type => type.parts
  | _, .typeParameter annotations _ bounds => annotations.parts ++ bounds.parts
  -- Patterns
  | _, .typePattern modifiers patternType _ => modifiers.parts ++ patternType.parts
  | _, .recordPattern recordType components => recordType.parts ++ components.parts
  -- Annotations and modifiers
  | _, .annotationUse _ arguments => arguments.parts
  | _, .singleArgument value => value.parts
  | _, .namedArguments pairs => pairs.parts
  | _, .elementExpression expression => expression.parts
  | _, .elementAnnotated annotationNode => annotationNode.parts
  | _, .elementArray values => values.parts
  | _, .elementValuePair _ value => value.parts
  | _, .annotatedModifier annotationTree => annotationTree.parts
  -- Variables and parameters
  | _, .parameter modifiers paramType _ _ _ _ => modifiers.parts ++ paramType.parts
  | _, .variableDeclarator _ _ initializer => initializer.parts
  -- Declarations of types and their members
  | _, .classDeclaration modifiers _ typeParameters extended implemented permitted body =>
    modifiers.parts ++ typeParameters.parts ++ extended.parts ++ implemented.parts ++
      permitted.parts ++ body.parts
  | _, .interfaceDeclaration modifiers _ typeParameters extended permitted body =>
    modifiers.parts ++ typeParameters.parts ++ extended.parts ++ permitted.parts ++ body.parts
  | _, .annotationTypeDeclaration modifiers _ body => modifiers.parts ++ body.parts
  | _, .enumDeclaration modifiers _ implemented constants body =>
    modifiers.parts ++ implemented.parts ++ constants.parts ++ body.parts
  | _, .recordDeclaration modifiers _ typeParameters components implemented body =>
    modifiers.parts ++ typeParameters.parts ++ components.parts ++ implemented.parts ++ body.parts
  | _, .enumConstant annotations _ arguments body =>
    annotations.parts ++ arguments.parts ++ body.parts
  | _, .fieldDeclaration modifiers fieldType declarators =>
    modifiers.parts ++ fieldType.parts ++ declarators.parts
  | _, .methodDeclaration modifiers typeParameters returnType _ parameters _ thrown defaultValue
      body =>
    modifiers.parts ++ typeParameters.parts ++ returnType.parts ++ parameters.parts ++
      thrown.parts ++ defaultValue.parts ++ body.parts
  | _, .constructorDeclaration modifiers typeParameters _ parameters thrown body =>
    modifiers.parts ++ typeParameters.parts ++ parameters.parts ++ thrown.parts ++ body.parts
  | _, .compactConstructor modifiers _ body => modifiers.parts ++ body.parts
  | _, .initializerBlock _ body => body.parts
  | _, .memberType declaration => declaration.parts
  -- Modules and compilation units
  | _, .uses service => service.parts
  | _, .provides service implementations => service.parts ++ implementations.parts
  | _, .moduleDeclaration annotations _ _ directives => annotations.parts ++ directives.parts
  | _, .packageDeclaration annotations _ => annotations.parts
  | _, .compilationUnit package imports types module =>
    package.parts ++ imports.parts ++ types.parts ++ module.parts
  -- Trees without nodes
  | _, .nil | _, .absent | _, .literal _ | _, .simpleName _ | _, .implicitParameters _ _
  | _, .caseNull | _, .caseDefault | _, .emptyStatement | _, .breakStatement _
  | _, .continueStatement _ | _, .voidType | _, .varType | _, .unnamedPattern | _, .noArguments
  | _, .keywordModifier _ | _, .sealedModifier | _, .nonSealedModifier | _, .emptyMember
  | _, .requires _ _ | _, .exports _ _ | _, .opens _ _ | _, .importDeclaration _ _ _ => []

variable {f : Form}

/-- A node is its own only part. -/
@[simp] theorem parts_node (n : Node f) : n.parts = [⟨f, n⟩] := by
  cases n
  rfl

/-- The parts of a list are those of its items. -/
@[simp] theorem parts_ofList (ts : List (Tree f)) : (ofList ts).parts = ts.flatMap parts := by
  induction ts with
  | nil => rfl
  | cons t ts ih => rw [List.flatMap_cons, ← ih]; rfl

/-- The parts of what may be missing are its parts if it is there. -/
@[simp] theorem parts_ofOption (t : Option (Tree f)) : (ofOption t).parts = t.elim [] parts := by
  cases t <;> rfl

end Tree

namespace Part

/-- The outermost nodes inside a node. -/
def children (p : Part) : List Part := p.node.inner.parts

/-- A node is another one or lies inside it, at any depth. -/
inductive Within : Part → Part → Prop
  | refl (p : Part) : Within p p
  | child {p q r : Part} (hq : q ∈ p.children) (hr : Within r q) : Within r p

/-- What lies inside a node inside another one lies inside that one. -/
theorem Within.trans {p q r : Part} (hr : Within r q) (hq : Within q p) : Within r p := by
  induction hq with
  | refl => exact hr
  | child hmem _ ih => exact .child hmem (ih hr)

end Part

end JavaSyntax
