import JavaSyntax.Proofs.Grammar.ExpressionLifts

/-!
# Statements and declarations are lifted

And from them the levels of the grammar: the innermost level refuses everything, and a level
around another one lifts if the one inside it does.
-/

set_option synthInstance.maxSize 16384

namespace JavaSyntax.Grammar

open JavaSyntax.Parser

variable {n : Nat} {g h : Grammar} [hgh : g.Lifting h]

/-! ### Parts of statements -/

instance : Lifts n g.blockBody h.blockBody := by unfold blockBody; infer_instance

instance : Lifts n g.condition h.condition := by unfold condition; infer_instance

instance : Lifts n g.expressionEnd h.expressionEnd := by unfold expressionEnd; infer_instance

instance : Lifts n jumpLabel jumpLabel := by unfold jumpLabel; infer_instance

instance : Lifts n atVariable atVariable := by
  unfold atVariable
  refine Lifts.seq inferInstance fun kind => ?_
  split <;> infer_instance

/-! ### Conditionals -/

instance : Lifts n g.ifArm h.ifArm := by unfold ifArm; infer_instance

instance (arms : List IfArm) : Lifts n (g.elseStep arms) (h.elseStep arms) := by
  unfold elseStep
  infer_instance

/-- Arms are put together at any depth in the same way. -/
theorem lifts_nestArms (arms : List IfArm) (a : Option (Node .statement)) :
    Lifts n (nestArms a arms) (nestArms a arms) := by
  induction arms generalizing a with
  | nil =>
    rw [nestArms]
    infer_instance
  | cons arm arms ih =>
    rw [nestArms]
    infer_instance

instance (arms : List IfArm) (a : Option (Node .statement)) :
    Lifts n (nestArms a arms) (nestArms a arms) := lifts_nestArms arms a

instance : Lifts n g.ifStatement h.ifStatement := by unfold ifStatement; infer_instance

/-! ### Loops -/

instance : Lifts n g.forEachFrom h.forEachFrom := by unfold forEachFrom; infer_instance

instance : Lifts n g.forInit h.forInit := by unfold forInit; infer_instance

instance (kind : TokenKind) : Lifts n (g.expressionUnless kind) (h.expressionUnless kind) := by
  unfold expressionUnless
  infer_instance

instance : Lifts n g.forFrom h.forFrom := by unfold forFrom; infer_instance

instance : Lifts n g.forStatement h.forStatement := by unfold forStatement; infer_instance

instance : Lifts n g.whileStatement h.whileStatement := by unfold whileStatement; infer_instance

instance : Lifts n g.doStatement h.doStatement := by unfold doStatement; infer_instance

/-! ### Resources and exceptions -/

instance : Lifts n g.resource h.resource := by unfold resource; infer_instance

instance : Lifts n moreResources moreResources := by unfold moreResources; infer_instance

instance : Lifts n g.resources h.resources := by unfold resources; infer_instance

instance : Lifts n g.catchClause h.catchClause := by unfold catchClause; infer_instance

instance : Lifts n g.tryStatement h.tryStatement := by unfold tryStatement; infer_instance

/-! ### Constructor calls -/

instance (a : Tree (.option (.node .expression))) (as : List (Node .type))
    (kind : ConstructorCall) :
    Lifts n (g.constructorCallFrom a as kind) (h.constructorCallFrom a as kind) := by
  unfold constructorCallFrom
  infer_instance

instance : Lifts n constructorKind constructorKind := by unfold constructorKind; infer_instance

instance : Lifts n g.constructorInvocation h.constructorInvocation := by
  unfold constructorInvocation
  infer_instance

/-! ### Declarations and expressions as statements -/

instance : Lifts n atTypeDeclaration atTypeDeclaration := by
  unfold atTypeDeclaration
  refine Lifts.seq inferInstance fun kind => ?_
  split <;> infer_instance

instance : Lifts n atLocalModifiers atLocalModifiers := by
  unfold atLocalModifiers
  refine Lifts.seq inferInstance fun kind => ?_
  split <;> infer_instance

instance : Lifts n g.localDeclaration h.localDeclaration := by
  unfold localDeclaration
  infer_instance

instance : Lifts n g.expressionStatement h.expressionStatement := by
  unfold expressionStatement
  refine Lifts.seq inferInstance fun expression => ?_
  split <;> infer_instance

instance : Lifts n g.labeledStatement h.labeledStatement := by
  unfold labeledStatement
  infer_instance

instance : Lifts n g.variableOrExpression h.variableOrExpression := by
  unfold variableOrExpression
  infer_instance

instance : Lifts n atLocalDeclaration atLocalDeclaration := by
  unfold atLocalDeclaration
  infer_instance

instance : Lifts n g.plainStatement h.plainStatement := by unfold plainStatement; infer_instance

/-! ### Any statement -/

instance : Lifts n g.returnStatement h.returnStatement := by unfold returnStatement; infer_instance

instance : Lifts n g.assertStatement h.assertStatement := by unfold assertStatement; infer_instance

instance : Lifts n g.synchronizedStatement h.synchronizedStatement := by
  unfold synchronizedStatement
  infer_instance

instance (keyword : Keyword) :
    Lifts n (g.keywordStatement keyword) (h.keywordStatement keyword) := by
  unfold keywordStatement
  split <;> infer_instance

instance : Lifts n g.statementTree h.statementTree := by
  unfold statementTree
  refine Lifts.seq inferInstance fun kind => ?_
  split <;> infer_instance

/-! ### Headers -/

instance (keyword : Keyword) : Lifts n (g.typesAfter keyword) (h.typesAfter keyword) := by
  unfold typesAfter
  infer_instance

instance : Lifts n g.permitted h.permitted := by unfold permitted; infer_instance

section Headers

variable (a : List (Node .modifier))

instance : Lifts n (g.classDeclaration a) (h.classDeclaration a) := by
  unfold classDeclaration
  infer_instance

instance : Lifts n (g.interfaceDeclaration a) (h.interfaceDeclaration a) := by
  unfold interfaceDeclaration
  infer_instance

instance : Lifts n (g.annotationTypeDeclaration a) (h.annotationTypeDeclaration a) := by
  unfold annotationTypeDeclaration
  infer_instance

instance : Lifts n (g.recordDeclaration a) (h.recordDeclaration a) := by
  unfold recordDeclaration
  infer_instance

end Headers

/-! ### Members -/

section Members

variable (a : List (Node .modifier)) (c : List (Node .typeParameter))

instance : Lifts n (g.constructorFrom a c) (h.constructorFrom a c) := by
  unfold constructorFrom
  infer_instance

instance : Lifts n (g.compactConstructorFrom a) (h.compactConstructorFrom a) := by
  unfold compactConstructorFrom
  infer_instance

instance : Lifts n g.methodBody? h.methodBody? := by unfold methodBody?; infer_instance

instance (t : Node .type) : Lifts n (g.methodFrom a c t) (h.methodFrom a c t) := by
  unfold methodFrom
  infer_instance

instance : Lifts n (g.methodOrField a c) (h.methodOrField a c) := by
  unfold methodOrField
  infer_instance

instance (className : Option String) : Lifts n (atClassName className) (atClassName className) := by
  unfold atClassName
  split <;> infer_instance

instance (className : Option String) :
    Lifts n (g.memberAfterModifiers className a) (h.memberAfterModifiers className a) := by
  unfold memberAfterModifiers
  infer_instance

end Members

instance (isStatic : Bool) : Lifts n (g.initializerFrom isStatic) (h.initializerFrom isStatic) := by
  unfold initializerFrom
  infer_instance

instance (className : Option String) :
    Lifts n (g.memberTree className) (h.memberTree className) := by
  unfold memberTree
  infer_instance

instance (className : Option String) : Lifts n (g.member className) (h.member className) := by
  unfold member
  infer_instance

instance (className : Option String) : Lifts n (g.members className) (h.members className) := by
  unfold members
  infer_instance

instance (className : Option String) :
    Lifts n (g.classBodyBraces className) (h.classBodyBraces className) := by
  unfold classBodyBraces
  infer_instance

/-! ### Enums -/

instance : Lifts n g.enumConstant h.enumConstant := by unfold enumConstant; infer_instance

instance : Lifts n g.enumConstants h.enumConstants := by unfold enumConstants; infer_instance

instance (name : String) : Lifts n (g.enumMembers name) (h.enumMembers name) := by
  unfold enumMembers
  infer_instance

instance (a : List (Node .modifier)) : Lifts n (g.enumDeclaration a) (h.enumDeclaration a) := by
  unfold enumDeclaration
  infer_instance

instance (a : List (Node .modifier)) :
    Lifts n (g.typeDeclarationTree a) (h.typeDeclarationTree a) := by
  unfold typeDeclarationTree
  refine Lifts.seq inferInstance fun kind => ?_
  split <;> infer_instance

instance (start : Nat) (a : List (Node .modifier)) :
    Lifts n (g.typeDeclarationBody start a) (h.typeDeclarationBody start a) := by
  unfold typeDeclarationBody
  infer_instance

/-! ### What is looked at first -/

section LooksFirst

variable (g : Grammar)

instance : LooksFirst g.annotationBody := by unfold annotationBody; infer_instance

instance : LooksFirst g.elementArrayBody := by unfold elementArrayBody; infer_instance

instance (allowVar : Bool) : LooksFirst (g.elementType allowVar) := by
  unfold elementType annotations Parser.atAnnotation
  infer_instance

instance : LooksFirst g.typeBody := by unfold typeBody; infer_instance

instance : LooksFirst g.unaryBody := by unfold unaryBody; infer_instance

instance : LooksFirst g.conditionalBody := by
  unfold conditionalBody anyBinary
  rw [binary]
  infer_instance

instance : LooksFirst g.expressionBody := by unfold expressionBody; infer_instance

instance : LooksFirst g.patternBody := by unfold patternBody atUnnamed; infer_instance

instance : LooksFirst g.arrayInitializerBody := by unfold arrayInitializerBody; infer_instance

instance : LooksFirst g.switchCases := by unfold switchCases; infer_instance

instance : LooksFirst g.blockBody := by unfold blockBody; infer_instance

instance : LooksFirst g.statementBody := by unfold statementBody statementTree; infer_instance

instance (start : Nat) (modifiers : List (Node .modifier)) :
    LooksFirst (g.typeDeclarationBody start modifiers) := by
  unfold typeDeclarationBody typeDeclarationTree
  infer_instance

instance (className : Option String) : LooksFirst (g.classBodyBraces className) := by
  unfold classBodyBraces
  infer_instance

end LooksFirst

/-! ### Levels -/

omit hgh in
/-- The innermost level refuses everything. -/
theorem lifting_innermost (levels : Nat) : innermost.Lifting (.levels levels) := by
  cases levels with
  | zero =>
    constructor <;> intros <;> exact inferInstanceAs (Lifts _ refuseDepth refuseDepth)
  | succ levels =>
    constructor <;> intros <;> exact inferInstanceAs (Lifts _ refuseDepth (guarded _ _))

/-- A level may read statements in a way of its own. -/
theorem lifting_around {p : Parser (Node .statement)} (hp : ∀ n, Lifts n p h.statementBody) :
    ({ g.around with statement := guarded "statement" p } : Grammar).Lifting h.around := by
  constructor <;> intros <;> exact inferInstanceAs (Lifts _ (guarded _ _) (guarded _ _))

end JavaSyntax.Grammar
