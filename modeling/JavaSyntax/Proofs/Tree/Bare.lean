import JavaSyntax.Tree.Printer
import JavaSyntax.Tree.View

/-!
# Trees without their places

Two trees are structurally equal if they differ only in the spans of their nodes and in the
texts that were kept with them. A bare tree has lost both, so structural equality is equality
of bare trees. Printing looks at neither, so structurally equal trees are printed alike.
-/

namespace JavaSyntax.Tree

/-- A tree without the spans and source texts of its nodes. -/
def bare : {f : Form} → Tree f → Tree f
  | _, .cons head tail => .cons head.bare tail.bare
  | _, .present tree => .present tree.bare
  | _, .located tree _ _ => .located tree.bare .nowhere ""
  -- Expressions
  | _, .this qualifier => .this qualifier.bare
  | _, .super qualifier => .super qualifier.bare
  | _, .fieldAccess target name => .fieldAccess target.bare name
  | _, .arrayAccess array index => .arrayAccess array.bare index.bare
  | _, .methodCall target typeArguments name arguments =>
    .methodCall target.bare typeArguments.bare name arguments.bare
  | _, .objectCreation outer typeArguments type arguments body =>
    .objectCreation outer.bare typeArguments.bare type.bare arguments.bare body.bare
  | _, .arrayCreation element dimensions extraDimensions annotations initializer =>
    .arrayCreation element.bare dimensions.bare extraDimensions annotations.bare initializer.bare
  | _, .arrayInitializer elements => .arrayInitializer elements.bare
  | _, .unary operator operand => .unary operator operand.bare
  | _, .binary left operator right => .binary left.bare operator right.bare
  | _, .assignment target operator value => .assignment target.bare operator value.bare
  | _, .conditional condition thenValue elseValue =>
    .conditional condition.bare thenValue.bare elseValue.bare
  | _, .instanceOf expression target => .instanceOf expression.bare target.bare
  | _, .cast targetType expression => .cast targetType.bare expression.bare
  | _, .lambda parameters body => .lambda parameters.bare body.bare
  | _, .methodReference target typeArguments name =>
    .methodReference target.bare typeArguments.bare name
  | _, .classLiteral type => .classLiteral type.bare
  | _, .parenthesized expression => .parenthesized expression.bare
  | _, .switchExpression selector body => .switchExpression selector.bare body.bare
  -- Parts of expressions
  | _, .testType type => .testType type.bare
  | _, .testPattern pattern => .testPattern pattern.bare
  | _, .explicitParameters parameters => .explicitParameters parameters.bare
  | _, .lambdaExpression expression => .lambdaExpression expression.bare
  | _, .lambdaBlock body => .lambdaBlock body.bare
  | _, .expressionTarget expression => .expressionTarget expression.bare
  | _, .typeTarget type => .typeTarget type.bare
  -- Switches
  | _, .rules cases => .rules cases.bare
  | _, .groups cases => .groups cases.bare
  | _, .switchRule label body => .switchRule label.bare body.bare
  | _, .ruleExpression expression => .ruleExpression expression.bare
  | _, .ruleBlock body => .ruleBlock body.bare
  | _, .ruleThrow statement => .ruleThrow statement.bare
  | _, .switchGroup labels statements => .switchGroup labels.bare statements.bare
  | _, .switchLabel labels guard => .switchLabel labels.bare guard.bare
  | _, .caseConstant expression => .caseConstant expression.bare
  | _, .casePattern pattern => .casePattern pattern.bare
  -- Statements
  | _, .block statements => .block statements.bare
  | _, .blockStatement body => .blockStatement body.bare
  | _, .expressionStatement expression => .expressionStatement expression.bare
  | _, .localVariable declaration => .localVariable declaration.bare
  | _, .localClass declaration => .localClass declaration.bare
  | _, .ifStatement condition thenBranch elseBranch =>
    .ifStatement condition.bare thenBranch.bare elseBranch.bare
  | _, .whileStatement condition body => .whileStatement condition.bare body.bare
  | _, .doStatement body condition => .doStatement body.bare condition.bare
  | _, .forStatement init condition update body =>
    .forStatement init.bare condition.bare update.bare body.bare
  | _, .forEachStatement modifiers type name iterable body =>
    .forEachStatement modifiers.bare type.bare name iterable.bare body.bare
  | _, .switchStatement selector body => .switchStatement selector.bare body.bare
  | _, .returnStatement value => .returnStatement value.bare
  | _, .throwStatement thrown => .throwStatement thrown.bare
  | _, .tryStatement resources body catches finallyBlock =>
    .tryStatement resources.bare body.bare catches.bare finallyBlock.bare
  | _, .synchronizedStatement lock body => .synchronizedStatement lock.bare body.bare
  | _, .labeledStatement label statement => .labeledStatement label statement.bare
  | _, .assertStatement condition message => .assertStatement condition.bare message.bare
  | _, .yieldStatement value => .yieldStatement value.bare
  | _, .constructorInvocation qualifier typeArguments kind arguments =>
    .constructorInvocation qualifier.bare typeArguments.bare kind arguments.bare
  -- Parts of statements
  | _, .localVariables modifiers type declarators =>
    .localVariables modifiers.bare type.bare declarators.bare
  | _, .forDeclaration declaration => .forDeclaration declaration.bare
  | _, .forExpressions expressions => .forExpressions expressions.bare
  | _, .catchClause modifiers types name body =>
    .catchClause modifiers.bare types.bare name body.bare
  | _, .resourceDeclaration modifiers type name initializer =>
    .resourceDeclaration modifiers.bare type.bare name initializer.bare
  | _, .resourceExpression expression => .resourceExpression expression.bare
  -- Types
  | _, .primitiveType annotations primitive => .primitiveType annotations.bare primitive
  | _, .classType segments => .classType segments.bare
  | _, .arrayType element dimensions => .arrayType element.bare dimensions.bare
  | _, .wildcardType annotations bound => .wildcardType annotations.bare bound.bare
  | _, .intersectionType bounds => .intersectionType bounds.bare
  | _, .unionType alternatives => .unionType alternatives.bare
  | _, .classTypeSegment annotations name typeArguments =>
    .classTypeSegment annotations.bare name typeArguments.bare
  | _, .dimension annotations => .dimension annotations.bare
  | _, .extendsBound type => .extendsBound type.bare
  | _, .superBound type => .superBound type.bare
  | _, .typeParameter annotations name bounds => .typeParameter annotations.bare name bounds.bare
  -- Patterns
  | _, .typePattern modifiers patternType name => .typePattern modifiers.bare patternType.bare name
  | _, .recordPattern recordType components => .recordPattern recordType.bare components.bare
  -- Annotations and modifiers
  | _, .annotationUse name arguments => .annotationUse name arguments.bare
  | _, .singleArgument value => .singleArgument value.bare
  | _, .namedArguments pairs => .namedArguments pairs.bare
  | _, .elementExpression expression => .elementExpression expression.bare
  | _, .elementAnnotated annotationNode => .elementAnnotated annotationNode.bare
  | _, .elementArray values => .elementArray values.bare
  | _, .elementValuePair name value => .elementValuePair name value.bare
  | _, .annotatedModifier annotationTree => .annotatedModifier annotationTree.bare
  -- Variables and parameters
  | _, .parameter modifiers paramType varargs name dimensions receiver =>
    .parameter modifiers.bare paramType.bare varargs name dimensions receiver
  | _, .variableDeclarator name dimensions initializer =>
    .variableDeclarator name dimensions initializer.bare
  -- Declarations of types and their members
  | _, .classDeclaration modifiers name typeParameters extended implemented permitted body =>
    .classDeclaration modifiers.bare name typeParameters.bare extended.bare implemented.bare
      permitted.bare body.bare
  | _, .interfaceDeclaration modifiers name typeParameters extended permitted body =>
    .interfaceDeclaration modifiers.bare name typeParameters.bare extended.bare permitted.bare
      body.bare
  | _, .annotationTypeDeclaration modifiers name body =>
    .annotationTypeDeclaration modifiers.bare name body.bare
  | _, .enumDeclaration modifiers name implemented constants body =>
    .enumDeclaration modifiers.bare name implemented.bare constants.bare body.bare
  | _, .recordDeclaration modifiers name typeParameters components implemented body =>
    .recordDeclaration modifiers.bare name typeParameters.bare components.bare implemented.bare
      body.bare
  | _, .enumConstant annotations name arguments body =>
    .enumConstant annotations.bare name arguments.bare body.bare
  | _, .fieldDeclaration modifiers fieldType declarators =>
    .fieldDeclaration modifiers.bare fieldType.bare declarators.bare
  | _, .methodDeclaration modifiers typeParameters returnType name parameters dimensions thrown
      defaultValue body =>
    .methodDeclaration modifiers.bare typeParameters.bare returnType.bare name parameters.bare
      dimensions thrown.bare defaultValue.bare body.bare
  | _, .constructorDeclaration modifiers typeParameters name parameters thrown body =>
    .constructorDeclaration modifiers.bare typeParameters.bare name parameters.bare thrown.bare
      body.bare
  | _, .compactConstructor modifiers name body => .compactConstructor modifiers.bare name body.bare
  | _, .initializerBlock isStatic body => .initializerBlock isStatic body.bare
  | _, .memberType declaration => .memberType declaration.bare
  -- Modules and compilation units
  | _, .uses service => .uses service.bare
  | _, .provides service implementations => .provides service.bare implementations.bare
  | _, .moduleDeclaration annotations isOpen name directives =>
    .moduleDeclaration annotations.bare isOpen name directives.bare
  | _, .packageDeclaration annotations name => .packageDeclaration annotations.bare name
  | _, .compilationUnit package imports types module =>
    .compilationUnit package.bare imports.bare types.bare module.bare
  -- Trees without parts
  | _, .nil => .nil
  | _, .absent => .absent
  | _, .literal l => .literal l
  | _, .simpleName name => .simpleName name
  | _, .implicitParameters names inParens => .implicitParameters names inParens
  | _, .caseNull => .caseNull
  | _, .caseDefault => .caseDefault
  | _, .emptyStatement => .emptyStatement
  | _, .breakStatement label => .breakStatement label
  | _, .continueStatement label => .continueStatement label
  | _, .voidType => .voidType
  | _, .varType => .varType
  | _, .unnamedPattern => .unnamedPattern
  | _, .noArguments => .noArguments
  | _, .keywordModifier keyword => .keywordModifier keyword
  | _, .sealedModifier => .sealedModifier
  | _, .nonSealedModifier => .nonSealedModifier
  | _, .emptyMember => .emptyMember
  | _, .requires modifiers module => .requires modifiers module
  | _, .exports package modules => .exports package modules
  | _, .opens package modules => .opens package modules
  | _, .importDeclaration isStatic name onDemand => .importDeclaration isStatic name onDemand

variable {f : Form}

/-- The items of a bare list are the bare items. -/
theorem toList_bare : (t : Tree (.list f)) → t.bare.toList = t.toList.map bare
  | .nil => rfl
  | .cons head tail => congrArg (head.bare :: ·) (toList_bare tail)

/-- A list of bare trees is bare. -/
theorem bare_ofList (ts : List (Tree f)) : (ofList ts).bare = ofList (ts.map bare) := by
  induction ts with
  | nil => rfl
  | cons t ts ih => exact congrArg (Tree.cons t.bare) ih

/-- The tree inside a bare node is bare. -/
theorem inner_bare : (t : Node f) → t.bare.inner = t.inner.bare
  | .located .. => rfl

/-- Structurally equal expressions are the same name with dots, or both are none. -/
theorem qualifiedName?_bare (t : Tree f) : t.bare.qualifiedName? = t.qualifiedName? := by
  induction t with
  | fieldAccess target name ih => exact congrArg (Option.map (· ++ [name])) ih
  | located t span source ih => exact ih
  | _ => rfl

/-! ### Printing does not look at places -/

/-- Whether an expression starts with an operator does not depend on places. -/
theorem startsWithOperator_bare (c : Char) (t : Tree .expression) :
    startsWithOperator c t.bare = startsWithOperator c t := by
  cases t <;> rfl

/-- The gap behind an operator does not depend on places. -/
theorem operatorGap_bare (operator : UnaryOperator) (operand : Node .expression) :
    operatorGap operator operand.bare.inner = operatorGap operator operand.inner := by
  cases operand with
  | located t span source =>
    change operatorGap operator t.bare = operatorGap operator t
    simp only [operatorGap, startsWithOperator_bare]

/-- Whether a label is a lone `default` depends neither on places nor on its guard. -/
theorem isDefault_bare (labels : Tree (.list (.node .caseLabel)))
    (guard guard' : Tree (.option (.node .expression))) :
    (switchLabel labels.bare guard').isDefault = (switchLabel labels guard).isDefault := by
  rw [isDefault, isDefault, toList_bare]
  rcases labels.toList with _ | ⟨first, _ | ⟨second, rest⟩⟩
  · rfl
  · cases first with
    | located label span source => cases label <;> rfl
  · cases first with
    | located label span source => cases label <;> rfl

/-- Printing does not look at places. -/
theorem print_bare (t : Tree f) : t.bare.print = t.print := by
  induction t with
  | unary operator operand ih =>
    change operation operator (operatorGap operator operand.bare.inner) operand.bare.print =
      operation operator (operatorGap operator operand.inner) operand.print
    rw [operatorGap_bare, ih]
  | switchLabel labels guard ihlabels ihguard =>
    change caseLabels (switchLabel labels.bare guard.bare).isDefault labels.bare.print
        guard.bare.print =
      caseLabels (switchLabel labels guard).isDefault labels.print guard.print
    rw [ihlabels, ihguard, isDefault_bare labels guard]
  | rules _ ih | groups _ ih | block _ ih => exact congrArg Print.bracedLines ih
  | nil | absent | literal | simpleName | implicitParameters | caseNull | caseDefault
  | emptyStatement | breakStatement | continueStatement | voidType | varType | unnamedPattern
  | noArguments | keywordModifier | sealedModifier | nonSealedModifier | emptyMember | requires
  | exports | opens | importDeclaration => rfl
  | _ =>
    -- both sides are put together alike from what their parts are printed as
    conv =>
      lhs
      whnf
    conv =>
      rhs
      whnf
    simp only [*]

/-- Structurally equal trees have the same canonical source. -/
theorem canonical_eq_of_bare {t u : Tree f} (h : t.bare = u.bare) : t.canonical = u.canonical := by
  rw [canonical, canonical, ← print_bare t, ← print_bare u, h]

end JavaSyntax.Tree
