import JavaSyntax.Proofs.Grammar.Advance
import JavaSyntax.Proofs.Syntax.Nesting

/-!
# The groups of the grammar

Every production of the grammar that nests closes the brackets that it opens. No expression passes
an arrow outside all groups where arrows start no lambdas, and neither do types, patterns and what
else can stand in the label of a switch.
-/

set_option synthInstance.maxSize 4096

namespace JavaSyntax

open JavaSyntax.Parser

/-- The guarded productions of a record close the groups that they open. -/
class Grammar.Nesting (g : Grammar) : Prop where
  annotationUse : Balances .barred [] g.annotationUse
  elementArray : Balances .barred [.leftBrace] g.elementArray
  type : Balances .barred [] g.type
  creationType : Balances .barred [] g.creationType
  expression : Balances .barred [] g.expression
  conditional : Balances .barred [] g.conditional
  unary : Balances .barred [] g.unary
  pattern : Balances .barred [] g.pattern
  arrayInitializer : Balances .barred [] g.arrayInitializer
  switchBody : Balances .never [] g.switchBody
  block : Balances .barred [] g.block
  statement : Balances .barred [] g.statement
  typeDeclaration : ∀ start modifiers, Balances .barred [] (g.typeDeclaration start modifiers)
  classBody : ∀ className, Balances .always [] (g.classBody className)

namespace Grammar

variable {g : Grammar} [hg : g.Nesting]

instance : Balances .barred [] g.annotationUse := hg.annotationUse

instance : Balances .barred [.leftBrace] g.elementArray := hg.elementArray

instance : Balances .barred [] g.type := hg.type

instance : Balances .barred [] g.creationType := hg.creationType

instance : Balances .barred [] g.expression := hg.expression

instance : Balances .barred [] g.conditional := hg.conditional

instance : Balances .barred [] g.unary := hg.unary

instance : Balances .barred [] g.pattern := hg.pattern

instance : Balances .barred [] g.arrayInitializer := hg.arrayInitializer

instance : Balances .never [] g.switchBody := hg.switchBody

instance : Balances .barred [] g.block := hg.block

instance : Balances .barred [] g.statement := hg.statement

instance (start : Nat) (modifiers : List (Node .modifier)) :
    Balances .barred [] (g.typeDeclaration start modifiers) := hg.typeDeclaration start modifiers

instance (className : Option String) : Balances .always [] (g.classBody className) :=
  hg.classBody className

end Grammar

/-! ### Names, literals and dimensions -/

namespace Parser

instance : Balances .always [] qualifiedName where
  nests := by unfold qualifiedName; infer_instance

instance : Balances .always [] identifierList where
  nests := by unfold identifierList; infer_instance

instance : Balances .always [] emptyDimensions where
  nests := by unfold emptyDimensions; infer_instance

instance : Balances .always [] expectClosingAngle where
  nests := by unfold expectClosingAngle; infer_instance

section Operators

variable {kind : TokenKind}

/-- A literal opens and closes nothing. -/
theorem isNeutral_of_literal {literal : LiteralKind}
    (h : LiteralKind.ofToken? kind = some literal) : kind.Neutral := by
  cases kind <;> first | exact ⟨rfl⟩ | cases h

/-- An operator before an operand opens and closes nothing. -/
theorem isNeutral_of_beforeOperand {operator : UnaryOperator}
    (h : UnaryOperator.beforeOperand? kind = some operator) : kind.Neutral := by
  cases kind <;> first | exact ⟨rfl⟩ | cases h

/-- An operator behind an operand opens and closes nothing. -/
theorem isNeutral_of_afterOperand {operator : UnaryOperator}
    (h : UnaryOperator.afterOperand? kind = some operator) : kind.Neutral := by
  cases kind <;> first | exact ⟨rfl⟩ | cases h

/-- An operator between operands opens and closes nothing. -/
theorem isNeutral_of_binary {operator : BinaryOperator}
    (h : BinaryOperator.ofToken? kind = some operator) : kind.Neutral := by
  cases kind <;> first | exact ⟨rfl⟩ | cases h

/-- An operator of an assignment opens and closes nothing. -/
theorem isNeutral_of_assignment {operator : AssignmentOperator}
    (h : AssignmentOperator.ofToken? kind = some operator) : kind.Neutral := by
  cases kind <;> first | exact ⟨rfl⟩ | cases h

end Operators

instance (negated : Bool) : Balances .always [] (literal negated) where
  nests := by
    unfold literal
    refine .ofKind fun kind => ?_
    split
    · infer_instance
    · have hneutral := isNeutral_of_literal ‹_›
      infer_instance

end Parser

namespace Grammar

variable {g : Grammar} [hg : g.Nesting]

/-! ### Annotations and modifiers -/

instance : Keeps atAnnotation := by unfold atAnnotation; infer_instance

instance : Balances .barred [] g.annotations where
  nests := by unfold annotations; infer_instance

instance : Balances .barred [] g.elementValue where
  nests := by
    unfold elementValue
    refine .ofKind fun kind => ?_
    split <;> infer_instance

instance : Balances .barred [.leftBrace] g.elementArrayBody where
  nests := by unfold elementArrayBody; infer_instance

instance : Balances .barred [] g.elementValuePair where
  nests := by unfold elementValuePair; infer_instance

instance : Balances .barred [] g.annotationArguments where
  nests := by unfold annotationArguments; infer_instance

instance : Balances .barred [] g.optionalArguments where
  nests := by unfold optionalArguments; infer_instance

instance : Balances .barred [] g.annotationBody where
  nests := by unfold annotationBody; infer_instance

instance : Balances .always [] sealing? where
  nests := by
    unfold sealing?
    infer_instance

instance : Balances .barred [] g.modifier? where
  nests := by
    unfold modifier?
    refine .ofKind fun kind => ?_
    split <;> infer_instance

instance : Balances .barred [] g.modifiers where
  nests := by
    unfold modifiers
    have hitem : Nests .barred [] 0 (do
        let start ← position
        match ← g.modifier? with
        | some tree => return some (← node start tree)
        | none => return none) 0 := by
      refine .fromPosition fun start => .seq inferInstance fun found => ?_
      split <;> infer_instance
    infer_instance

/-! ### Types -/

instance : Keeps atSegment := by unfold atSegment; infer_instance

instance {ks : List TokenKind} : Tells atSegment ks [.dot] := by
  unfold atSegment
  infer_instance

instance : Balances .barred [] g.wildcardBound? where
  nests := by unfold wildcardBound?; infer_instance

instance : Balances .barred [] g.typeArgument where
  nests := by
    unfold typeArgument
    exact Regresses.start fun n => .seq inferInstance fun annotations =>
      .seq inferInstance fun found => .cases (.tail inferInstance) (.goBack inferInstance)

instance : Balances .barred [] g.typeArguments where
  nests := by unfold typeArguments; infer_instance

instance : Balances .barred [] g.typeArguments? where
  nests := by unfold typeArguments?; infer_instance

instance : Balances .barred [] g.typeArgumentsOrNone where
  nests := by unfold typeArgumentsOrNone; infer_instance

instance (annotations : List (Node .annotationUse)) :
    Balances .barred [] (g.segment annotations) where
  nests := by unfold segment; infer_instance

instance (start : Nat) (annotations : List (Node .annotationUse)) :
    Balances .barred [] (g.classTypeFrom start annotations) where
  nests := by unfold classTypeFrom; infer_instance

instance : Balances .barred [] g.classType where
  nests := by unfold classType; infer_instance

instance : Balances .barred [] g.classTypeList where
  nests := by unfold classTypeList; infer_instance

/-- A primitive type is found at its keyword. -/
theorem nests_primitive? {β : Type} {w : Watch} {ks : List TokenKind} {depth d : Nat}
    {f : Option PrimitiveType → Parser β}
    (hsome : ∀ keyword primitive, Nests w [.keyword keyword] depth (f (some primitive)) d)
    (hnone : Nests w [] depth (f none) d) : Nests w ks depth (primitive? >>= f) d := by
  unfold primitive?
  rw [bind_assoc]
  refine .ofKind fun kind => ?_
  have hnone' : Nests w [kind] depth (f none) d := hnone.weaken
  split
  · rename_i keyword
    have hfound (found : Option PrimitiveType) : Nests w [.keyword keyword] depth (f found) d := by
      cases found with
      | none => exact hnone'
      | some primitive => exact hsome keyword primitive
    exact hfound _
  · exact hnone'

instance : Keeps atVar := by unfold atVar; infer_instance

instance {ks : List TokenKind} : Tells atVar ks [.identifier] := by
  unfold atVar
  infer_instance

instance (allowVar : Bool) : Balances .barred [] (g.elementType allowVar) where
  nests := by
    unfold elementType
    exact .fromPosition fun start => .seq inferInstance fun annotations =>
      nests_primitive? inferInstance inferInstance

instance : Keeps atDimension := by unfold atDimension; infer_instance

instance : Balances .barred [] g.dimension? where
  nests := by
    unfold dimension?
    exact .ask (Regresses.start fun n => .seq inferInstance fun annotations =>
      .ask (.tail inferInstance) (.goBack inferInstance)) inferInstance

instance : Balances .barred [] g.typeBody where
  nests := by unfold typeBody; infer_instance

instance : Balances .barred [] g.resultType where
  nests := by unfold resultType; infer_instance

instance : Balances .barred [] g.catchTypes where
  nests := by unfold catchTypes; infer_instance

instance : Balances .barred [] g.castType where
  nests := by unfold castType; infer_instance

instance : Balances .barred [] g.typeBounds where
  nests := by unfold typeBounds; infer_instance

instance : Balances .barred [] g.typeParameter where
  nests := by unfold typeParameter; infer_instance

instance : Balances .barred [] g.typeParameters where
  nests := by unfold typeParameters; infer_instance

/-! ### Patterns -/

instance : Keeps atUnnamed := by unfold atUnnamed; infer_instance

instance {ks : List TokenKind} : Tells atUnnamed ks [.identifier] := by
  unfold atUnnamed
  infer_instance

/-- The opening parenthesis has been passed before. -/
instance {w : Watch} {depth : Nat} : Nests w [] (depth + 1) g.patternComponents depth := by
  unfold patternComponents
  infer_instance

instance : Balances .barred [] g.patternBody where
  nests := by unfold patternBody; infer_instance

/-! ### Variables and arguments -/

instance : Balances .barred [] g.arguments where
  nests := by unfold arguments; infer_instance

instance : Balances .barred [] g.variableInitializer where
  nests := by unfold variableInitializer; infer_instance

instance : Balances .barred [] g.arrayInitializerBody where
  nests := by unfold arrayInitializerBody; infer_instance

instance : Balances .barred [] g.variableDeclarator where
  nests := by unfold variableDeclarator; infer_instance

instance : Balances .barred [] g.variableDeclarators where
  nests := by unfold variableDeclarators; infer_instance

instance (modifiers : List (Node .modifier)) : Balances .barred [] (g.localVariable modifiers) where
  nests := by unfold localVariable; infer_instance

instance : Keeps atReceiver := by unfold atReceiver; infer_instance

instance : Balances .always [] receiverName where
  nests := by unfold receiverName; infer_instance

instance (isFirst : Bool) : Balances .barred [] (g.parameter isFirst) where
  nests := by unfold parameter; infer_instance

instance : Balances .barred [] g.parameterList where
  nests := by unfold parameterList; infer_instance

instance : Balances .barred [] g.formalParameters where
  nests := by unfold formalParameters; infer_instance

/-! ### Switches -/

instance : Keeps atNullLabel := by unfold atNullLabel; infer_instance

instance {ks : List TokenKind} : Tells atNullLabel ks [.nullLiteral] := by
  unfold atNullLabel
  infer_instance

instance : Keeps atPattern := by unfold atPattern; infer_instance

instance : Balances .barred [] g.caseLabelTree where
  nests := by unfold caseLabelTree; infer_instance

instance : Balances .barred [] g.caseLabel where
  nests := by unfold caseLabel; infer_instance

instance : Balances .barred [] g.caseGuard? where
  nests := by unfold caseGuard?; infer_instance

instance : Balances .always [.keyword .default] defaultLabel where
  nests := by unfold defaultLabel; infer_instance

/-- No arrow stands in a label outside all groups, wherever the label stands. -/
instance : Balances .always [] g.switchLabel where
  nests := by unfold switchLabel; infer_instance

instance : Keeps atSwitchLabel := by unfold atSwitchLabel; infer_instance

instance : Balances .barred [] g.ruleBody where
  nests := by
    unfold ruleBody
    refine .ofKind fun kind => ?_
    split <;> infer_instance

instance (start : Nat) (label : Node .switchLabel) :
    Balances .never [] (g.ruleFrom start label) where
  nests := by unfold ruleFrom; infer_instance

instance : Balances .never [] g.rule where
  nests := by unfold rule; infer_instance

instance : Balances .barred [] g.labelWithColon where
  nests := by unfold labelWithColon; infer_instance

instance : Keeps atGroupStatement := by unfold atGroupStatement; infer_instance

instance (start : Nat) (label : Node .switchLabel) :
    Balances .barred [] (g.groupFrom start label) where
  nests := by unfold groupFrom; infer_instance

instance : Balances .barred [] g.group where
  nests := by unfold group; infer_instance

instance : Balances .never [] g.switchCases where
  nests := by unfold switchCases; infer_instance

instance : Balances .barred [] g.switchParts where
  nests := by unfold switchParts; infer_instance

/-! ### Primary expressions -/

instance : Balances .barred [] g.lambdaBody where
  nests := by unfold lambdaBody; infer_instance

instance (start : Nat) (parameters : Tree .lambdaParameters) :
    Balances .never [] (g.lambdaFrom start parameters) where
  nests := by unfold lambdaFrom; infer_instance

instance : Balances .always [] referenceName where
  nests := by unfold referenceName; infer_instance

instance (start : Nat) (target : Tree .referenceTarget) :
    Balances .barred [] (g.methodReference start target) where
  nests := by unfold methodReference; infer_instance

instance (start : Nat) (type : Node .type) :
    Balances .barred [] (g.typePrimaryFrom start type) where
  nests := by unfold typePrimaryFrom; infer_instance

instance (d : NewDimensions) : Balances .barred [] (g.newDimension d) where
  nests := by
    unfold newDimension
    refine Regresses.start fun n => .seq inferInstance fun annotations =>
      .askNot (.tail inferInstance) ?_
    refine .next rfl (.tail ?_) (.cases (.tail inferInstance) (.goBack inferInstance))
    exact inferInstanceAs (Nests _ [.leftBracket, .rightBracket] _ _ _)

instance (start : Nat) (element : Node .type) :
    Balances .barred [] (g.arrayCreation start element) where
  nests := by unfold arrayCreation; infer_instance

instance (start : Nat) (outer : Option (Node .expression)) (typeArguments : List (Node .type))
    (type : Node .type) :
    Balances .barred [] (g.objectCreation start outer typeArguments type) where
  nests := by unfold objectCreation; infer_instance

instance (start : Nat) (outer : Option (Node .expression)) :
    Balances .barred [] (g.creation start outer) where
  nests := by unfold creation; infer_instance

instance : Keeps typePrimary? := by unfold typePrimary?; infer_instance

instance (next : TokenKind) : Keeps (atTypePrimary next) := by unfold atTypePrimary; infer_instance

instance (start : Nat) : Balances .barred [] (g.namePrimary start) where
  nests := by unfold namePrimary; infer_instance

instance (start : Nat) : Balances .barred [.leftParen] (g.parenthesized start) where
  nests := by unfold parenthesized; infer_instance

instance (start : Nat) (keyword : Keyword) :
    Balances .barred [.keyword keyword] (g.keywordPrimary start keyword) where
  nests := by
    unfold keywordPrimary
    split <;> infer_instance

instance : Balances .barred [] g.primary where
  nests := by
    unfold primary
    refine .fromPosition fun start => .ofKind fun kind => ?_
    split <;> infer_instance

instance (start : Nat) (target : Node .expression) :
    Balances .always [.keyword .class] (classLiteral start target) where
  nests := by
    unfold classLiteral
    split <;> infer_instance

instance (start : Nat) (target : Node .expression) :
    Balances .barred [] (g.dotSelector start target) where
  nests := by
    unfold dotSelector
    refine .ofKind fun kind => ?_
    split <;> infer_instance

instance (start : Nat) (target : Node .expression) :
    Balances .barred [] (g.selector start target) where
  nests := by
    unfold selector
    refine .ofKind fun kind => ?_
    split
    · infer_instance
    · infer_instance
    · infer_instance
    · split
      · infer_instance
      · have hneutral := isNeutral_of_afterOperand ‹_›
        infer_instance

instance (start : Nat) (target : Node .expression) :
    Balances .barred [] (g.selectors start target) where
  nests := by unfold selectors; infer_instance

/-! ### Operators -/

instance (start : Nat) : Balances .barred [] (g.castFrom start) where
  nests := by unfold castFrom; infer_instance

instance : Balances .always [] implicitParameters where
  nests := by unfold implicitParameters; infer_instance

instance (kind : ParenKind) : Balances .barred [] (g.lambdaParameters kind) where
  nests := by unfold lambdaParameters; infer_instance

instance (kind : TokenKind) : Keeps (atNegativeLiteral kind) := by
  unfold atNegativeLiteral
  infer_instance

instance (kind : TokenKind) : Tells (atNegativeLiteral kind) [kind] [.minus] where
  sees {s s'} hs hks hrun := by
    have hkeeps : Keeps (atNegativeLiteral kind) := inferInstance
    obtain ⟨hcourse, hposition⟩ := hkeeps.keeps hs hrun
    by_cases hkind : kind = .minus
    · subst hkind
      exact hks.course hs hcourse hposition
    · rw [atNegativeLiteral, if_neg hkind] at hrun
      cases hrun

instance (start : Nat) : Balances .always [.minus] (negativeLiteral start) where
  nests := by unfold negativeLiteral; infer_instance

instance (start : Nat) : Balances .barred [] (g.postfixExpression start) where
  nests := by unfold postfixExpression; infer_instance

instance : Keeps classifyParen := by unfold classifyParen; infer_instance

instance (start : Nat) : Balances .barred [] (g.parenExpression start) where
  nests := by unfold parenExpression; infer_instance

instance : Balances .barred [] g.unaryBody where
  nests := by
    unfold unaryBody
    refine .fromPosition fun start => .ofKind fun kind => .ask inferInstance ?_
    split
    · have hneutral := isNeutral_of_beforeOperand ‹_›
      infer_instance
    · infer_instance

instance : Balances .barred [] g.instanceOfTarget where
  nests := by unfold instanceOfTarget; infer_instance

/-- Going on with a binary operator or `instanceof` closes all groups and passes no free arrow. -/
theorem balances_binaryStep {operand : Nat → Parser (Node .expression)}
    (hoperand : ∀ least, Balances .barred [] (operand least)) (least start : Nat)
    (left : Node .expression) : Balances .barred [] (g.binaryStep operand least start left) where
  nests := by
    unfold binaryStep
    refine .ofKind fun kind => ?_
    split
    · rename_i hkind
      subst hkind
      infer_instance
    · split
      · infer_instance
      · have hneutral := isNeutral_of_binary ‹_›
        have hright := hoperand
        infer_instance

instance (levels least : Nat) : Balances .barred [] (g.binary levels least) := by
  induction levels generalizing least with
  | zero => exact inferInstanceAs (Balances .barred [] g.unaryBody)
  | succ levels ih =>
    have hstep := balances_binaryStep (g := g) ih least
    exact ⟨by unfold binary; infer_instance⟩

instance : Balances .barred [] g.anyBinary where
  nests := by unfold anyBinary; infer_instance

instance : Balances .barred [] g.conditionalBody where
  nests := by unfold conditionalBody; infer_instance

instance : Balances .barred [] g.expressionBody where
  nests := by
    unfold expressionBody
    refine .fromPosition fun start => .seq inferInstance fun target => .ofKind fun kind => ?_
    split
    · infer_instance
    · have hneutral := isNeutral_of_assignment ‹_›
      infer_instance

/-! ### Statements -/

instance : Balances .barred [] g.blockBody where
  nests := by unfold blockBody; infer_instance

instance : Balances .barred [] g.condition where
  nests := by unfold condition; infer_instance

instance : Balances .barred [] g.expressionEnd where
  nests := by unfold expressionEnd; infer_instance

instance : Balances .always [] jumpLabel where
  nests := by unfold jumpLabel; infer_instance

instance : Keeps atLocalVariable := by unfold atLocalVariable; infer_instance

instance : Keeps atVariable := by
  unfold atVariable
  refine .ofKind fun kind => ?_
  split <;> infer_instance

instance : Balances .barred [] g.ifArm where
  nests := by unfold ifArm; infer_instance

instance (arms : List IfArm) : Balances .barred [] (g.elseStep arms) where
  nests := by unfold elseStep; infer_instance

instance (elseBranch : Option (Node .statement)) (arms : List IfArm) :
    Balances .always [] (nestArms elseBranch arms) where
  nests := by
    induction arms generalizing elseBranch with
    | nil => exact inferInstanceAs (Nests _ _ _ (pure elseBranch) _)
    | cons arm arms ih =>
      unfold nestArms
      infer_instance

instance : Balances .barred [] g.ifStatement where
  nests := by unfold ifStatement; infer_instance

/-- The opening parenthesis has been passed before. -/
instance : Nests .barred [] (0 + 1) g.forEachFrom 0 := by
  unfold forEachFrom
  infer_instance

instance : Balances .barred [] g.forInit where
  nests := by unfold forInit; infer_instance

instance (kind : TokenKind) : Balances .barred [] (g.expressionUnless kind) where
  nests := by unfold expressionUnless; infer_instance

instance : Nests .barred [] (0 + 1) g.forFrom 0 := by
  unfold forFrom
  infer_instance

instance : Keeps atEnhancedFor := by unfold atEnhancedFor; infer_instance

instance : Balances .barred [] g.forStatement where
  nests := by unfold forStatement; infer_instance

instance : Balances .barred [.keyword .while] g.whileStatement where
  nests := by unfold whileStatement; infer_instance

instance : Balances .barred [.keyword .do] g.doStatement where
  nests := by unfold doStatement; infer_instance

instance : Balances .barred [] g.resource where
  nests := by unfold resource; infer_instance

instance : Balances .barred [] moreResources where
  nests := by unfold moreResources; infer_instance

instance : Balances .barred [] g.resources where
  nests := by unfold resources; infer_instance

instance : Balances .barred [] g.catchClause where
  nests := by unfold catchClause; infer_instance

instance : Balances .barred [] g.tryStatement where
  nests := by unfold tryStatement; infer_instance

instance (qualifier : Tree (.option (.node .expression))) (typeArguments : List (Node .type))
    (kind : ConstructorCall) :
    Balances .barred [] (g.constructorCallFrom qualifier typeArguments kind) where
  nests := by unfold constructorCallFrom; infer_instance

instance : Balances .always [] constructorKind where
  nests := by unfold constructorKind; infer_instance

instance : Balances .barred [] g.constructorInvocation where
  nests := by unfold constructorInvocation; infer_instance

instance : Keeps atTypeDeclaration := by
  unfold atTypeDeclaration
  refine .ofKind fun kind => ?_
  split <;> infer_instance

instance : Keeps atLocalModifiers := by
  unfold atLocalModifiers
  refine .ofKind fun kind => ?_
  split <;> infer_instance

instance : Balances .barred [] g.localDeclaration where
  nests := by unfold localDeclaration; infer_instance

instance : Balances .barred [] g.expressionStatement where
  nests := by
    unfold expressionStatement
    refine .seq inferInstance fun expression => ?_
    split <;> infer_instance

instance : Balances .barred [.identifier, .colon] g.labeledStatement where
  nests := by
    unfold labeledStatement
    exact .takeIdentifier inferInstance

instance : Balances .barred [] g.variableOrExpression where
  nests := by unfold variableOrExpression; infer_instance

instance : Keeps atLocalDeclaration := by unfold atLocalDeclaration; infer_instance

instance : Keeps atYield := by unfold atYield; infer_instance

instance : Balances .barred [] g.plainStatement where
  nests := by
    unfold plainStatement
    refine .ask inferInstance (.askNot inferInstance (.ask inferInstance (.next rfl ?_ ?_)))
    · exact inferInstanceAs (Nests _ [.identifier, .colon] _ g.labeledStatement _)
    · infer_instance

instance : Balances .barred [.keyword .return] g.returnStatement where
  nests := by unfold returnStatement; infer_instance

instance : Balances .barred [.keyword .assert] g.assertStatement where
  nests := by unfold assertStatement; infer_instance

instance : Balances .barred [.keyword .synchronized] g.synchronizedStatement where
  nests := by unfold synchronizedStatement; infer_instance

instance (keyword : Keyword) :
    Balances .barred [.keyword keyword] (g.keywordStatement keyword) where
  nests := by
    unfold keywordStatement
    split <;> infer_instance

instance : Balances .barred [] g.statementTree where
  nests := by
    unfold statementTree
    refine .ofKind fun kind => ?_
    split <;> infer_instance

instance : Balances .barred [] g.statementBody where
  nests := by unfold statementBody; infer_instance

/-! ### Declarations -/

instance (keyword : Keyword) : Balances .barred [] (g.typesAfter keyword) where
  nests := by unfold typesAfter; infer_instance

instance : Balances .barred [] g.permitted where
  nests := by unfold permitted; infer_instance

instance (modifiers : List (Node .modifier)) :
    Balances .barred [] (g.classDeclaration modifiers) where
  nests := by unfold classDeclaration; infer_instance

instance (modifiers : List (Node .modifier)) :
    Balances .barred [] (g.interfaceDeclaration modifiers) where
  nests := by unfold interfaceDeclaration; infer_instance

instance (modifiers : List (Node .modifier)) :
    Balances .barred [] (g.annotationTypeDeclaration modifiers) where
  nests := by unfold annotationTypeDeclaration; infer_instance

instance (modifiers : List (Node .modifier)) :
    Balances .barred [] (g.recordDeclaration modifiers) where
  nests := by unfold recordDeclaration; infer_instance

instance (modifiers : List (Node .modifier))
    (typeParameters : List (Node .typeParameter)) :
    Balances .barred [] (g.constructorFrom modifiers typeParameters) where
  nests := by unfold constructorFrom; infer_instance

instance (modifiers : List (Node .modifier)) :
    Balances .barred [] (g.compactConstructorFrom modifiers) where
  nests := by unfold compactConstructorFrom; infer_instance

instance : Balances .barred [] g.methodBody? where
  nests := by unfold methodBody?; infer_instance

instance (modifiers : List (Node .modifier))
    (typeParameters : List (Node .typeParameter)) (returnType : Node .type) :
    Balances .barred [] (g.methodFrom modifiers typeParameters returnType) where
  nests := by unfold methodFrom; infer_instance

instance (modifiers : List (Node .modifier))
    (typeParameters : List (Node .typeParameter)) :
    Balances .barred [] (g.methodOrField modifiers typeParameters) where
  nests := by unfold methodOrField; infer_instance

instance (className : Option String) : Keeps (atClassName className) := by
  unfold atClassName
  split <;> infer_instance

instance (className : Option String) (modifiers : List (Node .modifier)) :
    Balances .barred [] (g.memberAfterModifiers className modifiers) where
  nests := by unfold memberAfterModifiers; infer_instance

instance (isStatic : Bool) : Balances .barred [] (g.initializerFrom isStatic) where
  nests := by unfold initializerFrom; infer_instance

instance (className : Option String) : Balances .barred [] (g.memberTree className) where
  nests := by unfold memberTree; infer_instance

instance (className : Option String) : Balances .barred [] (g.member className) where
  nests := by unfold member; infer_instance

instance (className : Option String) : Balances .barred [] (g.members className) where
  nests := by unfold members; infer_instance

instance (className : Option String) : Balances .always [] (g.classBodyBraces className) where
  nests := by unfold classBodyBraces; infer_instance

instance : Balances .barred [] g.enumConstant where
  nests := by unfold enumConstant; infer_instance

instance : Balances .barred [] g.enumConstants where
  nests := by unfold enumConstants; infer_instance

instance (name : String) : Balances .barred [] (g.enumMembers name) where
  nests := by unfold enumMembers; infer_instance

instance (modifiers : List (Node .modifier)) :
    Balances .barred [] (g.enumDeclaration modifiers) where
  nests := by unfold enumDeclaration; infer_instance

instance (modifiers : List (Node .modifier)) :
    Balances .barred [] (g.typeDeclarationTree modifiers) where
  nests := by
    unfold typeDeclarationTree
    refine .ofKind fun kind => ?_
    split <;> infer_instance

instance (start : Nat) (modifiers : List (Node .modifier)) :
    Balances .barred [] (g.typeDeclarationBody start modifiers) where
  nests := by unfold typeDeclarationBody; infer_instance

/-! ### Levels -/

instance : innermost.Nesting where
  annotationUse := inferInstanceAs (Balances _ _ refuseDepth)
  elementArray := inferInstanceAs (Balances _ _ refuseDepth)
  type := inferInstanceAs (Balances _ _ refuseDepth)
  creationType := inferInstanceAs (Balances _ _ refuseDepth)
  expression := inferInstanceAs (Balances _ _ refuseDepth)
  conditional := inferInstanceAs (Balances _ _ refuseDepth)
  unary := inferInstanceAs (Balances _ _ refuseDepth)
  pattern := inferInstanceAs (Balances _ _ refuseDepth)
  arrayInitializer := inferInstanceAs (Balances _ _ refuseDepth)
  switchBody := inferInstanceAs (Balances _ _ refuseDepth)
  block := inferInstanceAs (Balances _ _ refuseDepth)
  statement := inferInstanceAs (Balances _ _ refuseDepth)
  typeDeclaration _ _ := inferInstanceAs (Balances _ _ refuseDepth)
  classBody _ := inferInstanceAs (Balances _ _ refuseDepth)

instance : g.around.Nesting where
  annotationUse := inferInstanceAs (Balances _ _ (guarded _ _))
  elementArray := inferInstanceAs (Balances _ _ (guarded _ _))
  type := inferInstanceAs (Balances _ _ (guarded _ _))
  creationType := inferInstanceAs (Balances _ _ (guarded _ _))
  expression := inferInstanceAs (Balances _ _ (guarded _ _))
  conditional := inferInstanceAs (Balances _ _ (guarded _ _))
  unary := inferInstanceAs (Balances _ _ (guarded _ _))
  pattern := inferInstanceAs (Balances _ _ (guarded _ _))
  arrayInitializer := inferInstanceAs (Balances _ _ (guarded _ _))
  switchBody := inferInstanceAs (Balances _ _ (guarded _ (withLambdas _ _)))
  block := inferInstanceAs (Balances _ _ (guarded _ _))
  statement := inferInstanceAs (Balances _ _ (guarded _ _))
  typeDeclaration _ _ := inferInstanceAs (Balances _ _ (guarded _ _))
  classBody _ := inferInstanceAs (Balances _ _ (guarded _ _))

/-- At every depth, all productions that nest close their groups. -/
theorem nesting_levels (n : Nat) : (levels n).Nesting := by
  induction n with
  | zero => exact inferInstanceAs innermost.Nesting
  | succ n ih => exact inferInstanceAs (levels n).around.Nesting

end Grammar

end JavaSyntax
