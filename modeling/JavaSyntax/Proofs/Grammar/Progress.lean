import JavaSyntax.Proofs.Grammar.Statements
import JavaSyntax.Proofs.Syntax.Progress

/-!
# The grammar makes progress

Every step with which a loop of the grammar goes round passes a token. For the loops that
read nodes this rests on the productions that read them: an annotation, a statement, a
declaration of a type and a member are never empty.
-/

set_option synthInstance.maxSize 4096

namespace JavaSyntax

open JavaSyntax.Parser

/-- The guarded productions of a record that are read in loops are never empty. -/
class Grammar.Striding (g : Grammar) : Prop where
  annotationUse : ∀ n, Passes n g.annotationUse
  block : ∀ n, Passes n g.block
  statement : ∀ n, Passes n g.statement
  typeDeclaration : ∀ n start modifiers, Passes n (g.typeDeclaration start modifiers)

namespace Grammar

variable {n : Nat} {g : Grammar} [g.Productive] [hg : g.Striding]

instance : Passes n g.annotationUse := hg.annotationUse n

instance : Passes n g.block := hg.block n

instance : Passes n g.statement := hg.statement n

instance (start : Nat) (modifiers : List (Node .modifier)) :
    Passes n (g.typeDeclaration start modifiers) := hg.typeDeclaration n start modifiers

/-! ### Annotations and modifiers -/

instance : Passes n g.annotationBody := by unfold annotationBody; infer_instance

instance : Sights atNonSealed := by unfold atNonSealed; infer_instance

instance (keyword : Keyword) : Keeps (isModifierHere keyword) := by
  unfold isModifierHere
  split <;> infer_instance

instance : Strides n (·.isSome = true) sealing? := by unfold sealing?; infer_instance

instance : Strides n (·.isSome = true) g.modifier? := by
  unfold modifier?
  refine Strides.ofKind (fun kind hkind => ?_) inferInstance
  split <;> infer_instance

/-! ### Types -/

instance (annotations : List (Node .annotationUse)) : Passes n (g.segment annotations) := by
  unfold segment
  infer_instance

instance : Strides n (·.isSome = true) g.dimension? := by unfold dimension?; infer_instance

/-! ### Switches -/

instance (start : Nat) (label : Node .switchLabel) : Passes n (g.ruleFrom start label) := by
  unfold ruleFrom
  infer_instance

instance : Passes n g.rule := by unfold rule; infer_instance

instance : Passes n g.labelWithColon := by unfold labelWithColon; infer_instance

instance (start : Nat) (label : Node .switchLabel) : Onward n (g.groupFrom start label) := by
  unfold groupFrom
  infer_instance

instance : Passes n g.group := by unfold group; infer_instance

instance : Passes n g.switchParts := by unfold switchParts; infer_instance

/-! ### Expressions -/

instance : Passes n g.arguments := by unfold arguments; infer_instance

instance (start : Nat) (target : Tree .referenceTarget) :
    Passes n (g.methodReference start target) := by
  unfold methodReference
  infer_instance

instance (d : NewDimensions) : Strides n Step.IsAgain (g.newDimension d) := by
  unfold newDimension
  infer_instance

instance (start : Nat) (element : Node .type) : Onward n (g.arrayCreation start element) := by
  unfold arrayCreation
  infer_instance

instance (start : Nat) (outer : Option (Node .expression)) (typeArguments : List (Node .type))
    (type : Node .type) : Passes n (g.objectCreation start outer typeArguments type) := by
  unfold objectCreation
  infer_instance

instance (start : Nat) (outer : Option (Node .expression)) :
    Passes n (g.creation start outer) := by
  unfold creation
  infer_instance

instance (start : Nat) (target : Node .expression) : Onward n (classLiteral start target) := by
  unfold classLiteral
  split <;> infer_instance

instance (start : Nat) (target : Node .expression) : Onward n (g.dotSelector start target) := by
  unfold dotSelector
  refine .seq inferInstance fun kind => ?_
  split <;> infer_instance

instance (start : Nat) (target : Node .expression) :
    Strides n Step.IsAgain (g.selector start target) := by
  unfold selector
  refine Strides.ofKind (fun kind hkind => ?_)
    (inferInstanceAs (Strides n _ (pure (Step.done target))))
  split
  · infer_instance
  · infer_instance
  · infer_instance
  · split <;> infer_instance

omit hg in
/-- Another round over operators passes one. -/
theorem strides_binaryStep {operand : Nat → Parser (Node .expression)}
    (hoperand : ∀ least, Production .looking (operand least)) (least start : Nat)
    (left : Node .expression) :
    Strides n Step.IsAgain (g.binaryStep operand least start left) := by
  have honward (least n : Nat) : Onward n (operand least) :=
    have := (hoperand least).onAny (m := .free)
    inferInstance
  unfold binaryStep
  refine Strides.ofKind (fun kind hkind => ?_)
    (inferInstanceAs (Strides n _ (pure (Step.done left))))
  split
  · infer_instance
  · split <;> infer_instance

/-! ### Statements -/

instance : Passes n g.condition := by unfold condition; infer_instance

instance : Passes n g.expressionEnd := by unfold expressionEnd; infer_instance

instance : Passes n jumpLabel := by unfold jumpLabel; infer_instance

instance : Passes n g.ifArm := by unfold ifArm; infer_instance

instance (arms : List IfArm) : Strides n Step.IsAgain (g.elseStep arms) := by
  unfold elseStep
  infer_instance

/-- The arms of a chain are put together without looking at the text. -/
theorem onward_nestArms (elseBranch : Option (Node .statement)) (arms : List IfArm) :
    Onward n (nestArms elseBranch arms) := by
  induction arms generalizing elseBranch with
  | nil =>
    rw [nestArms]
    infer_instance
  | cons arm arms ih =>
    rw [nestArms]
    infer_instance

instance (elseBranch : Option (Node .statement)) (arms : List IfArm) :
    Onward n (nestArms elseBranch arms) := onward_nestArms elseBranch arms

instance : Strides n (· = true) moreResources := by unfold moreResources; infer_instance

instance : Passes n g.catchClause := by unfold catchClause; infer_instance

instance : Passes n g.blockBody := by unfold blockBody; infer_instance

instance : Passes n g.ifStatement := by
  unfold ifStatement
  exact .passThen inferInstance fun first => .seq inferInstance fun (arms, last) => inferInstance

instance : Passes n g.whileStatement := by unfold whileStatement; infer_instance

instance : Passes n g.doStatement := by unfold doStatement; infer_instance

instance : Passes n g.forStatement := by unfold forStatement; infer_instance

instance : Passes n g.tryStatement := by unfold tryStatement; infer_instance

instance (qualifier : Tree (.option (.node .expression))) (typeArguments : List (Node .type))
    (kind : ConstructorCall) : Passes n (g.constructorCallFrom qualifier typeArguments kind) := by
  unfold constructorCallFrom
  infer_instance

instance : Passes n g.constructorInvocation := by unfold constructorInvocation; infer_instance

instance : Passes n g.localDeclaration := by unfold localDeclaration; infer_instance

instance : Passes n g.expressionStatement := by
  unfold expressionStatement
  refine .seq inferInstance fun expression => ?_
  split <;> infer_instance

instance : Passes n g.labeledStatement := by unfold labeledStatement; infer_instance

instance : Passes n g.variableOrExpression := by unfold variableOrExpression; infer_instance

instance : Passes n g.plainStatement := by unfold plainStatement; infer_instance

instance : Passes n g.returnStatement := by unfold returnStatement; infer_instance

instance : Passes n g.assertStatement := by unfold assertStatement; infer_instance

instance : Passes n g.synchronizedStatement := by unfold synchronizedStatement; infer_instance

instance (keyword : Keyword) : Passes n (g.keywordStatement keyword) := by
  unfold keywordStatement
  split <;> infer_instance

instance : Passes n g.statementTree := by
  unfold statementTree
  refine Strides.ofKind (fun kind hkind => ?_) (inferInstanceAs (Passes n g.plainStatement))
  split <;> infer_instance

instance : Passes n g.statementBody := by unfold statementBody; infer_instance

/-! ### Declarations -/

instance (modifiers : List (Node .modifier)) : Passes n (g.classDeclaration modifiers) := by
  unfold classDeclaration
  infer_instance

instance (modifiers : List (Node .modifier)) : Passes n (g.interfaceDeclaration modifiers) := by
  unfold interfaceDeclaration
  infer_instance

instance (modifiers : List (Node .modifier)) :
    Passes n (g.annotationTypeDeclaration modifiers) := by
  unfold annotationTypeDeclaration
  infer_instance

instance (modifiers : List (Node .modifier)) : Passes n (g.recordDeclaration modifiers) := by
  unfold recordDeclaration
  infer_instance

instance (modifiers : List (Node .modifier)) : Passes n (g.enumDeclaration modifiers) := by
  unfold enumDeclaration
  infer_instance

instance (modifiers : List (Node .modifier)) : Passes n (g.typeDeclarationTree modifiers) := by
  unfold typeDeclarationTree
  refine .seq inferInstance fun kind => ?_
  split <;> infer_instance

instance (start : Nat) (modifiers : List (Node .modifier)) :
    Passes n (g.typeDeclarationBody start modifiers) := by
  unfold typeDeclarationBody
  infer_instance

instance (modifiers : List (Node .modifier)) (typeParameters : List (Node .typeParameter)) :
    Passes n (g.constructorFrom modifiers typeParameters) := by
  unfold constructorFrom
  infer_instance

instance (modifiers : List (Node .modifier)) :
    Passes n (g.compactConstructorFrom modifiers) := by
  unfold compactConstructorFrom
  infer_instance

instance (modifiers : List (Node .modifier)) (typeParameters : List (Node .typeParameter)) :
    Passes n (g.methodOrField modifiers typeParameters) := by
  unfold methodOrField methodFrom
  infer_instance

instance (className : Option String) (modifiers : List (Node .modifier)) :
    Passes n (g.memberAfterModifiers className modifiers) := by
  unfold memberAfterModifiers
  infer_instance

instance (className : Option String) : Passes n (g.member className) := by
  unfold member memberTree initializerFrom
  infer_instance

/-! ### Compilation units -/

instance (names : List String) : Strides n Step.IsAgain (importedPart names) := by
  unfold importedPart
  infer_instance

instance : Passes n importDeclaration := by unfold importDeclaration; infer_instance

instance : Strides n (·.isSome = true) requiresModifier? := by
  unfold requiresModifier?
  infer_instance

instance : Passes n g.directive := by unfold directive; infer_instance

instance : Passes n g.topLevelType := by unfold topLevelType; infer_instance

/-! ### Levels -/

instance : innermost.Striding where
  annotationUse _ := inferInstanceAs (Passes _ refuseDepth)
  block _ := inferInstanceAs (Passes _ refuseDepth)
  statement _ := inferInstanceAs (Passes _ refuseDepth)
  typeDeclaration _ _ _ := inferInstanceAs (Passes _ refuseDepth)

instance : g.around.Striding where
  annotationUse _ := inferInstanceAs (Passes _ (guarded _ _))
  block _ := inferInstanceAs (Passes _ (guarded _ _))
  statement _ := inferInstanceAs (Passes _ (guarded _ _))
  typeDeclaration _ _ _ := inferInstanceAs (Passes _ (guarded _ _))

/-- Every level makes progress. -/
theorem striding_levels (n : Nat) : (levels n).Striding := by
  induction n with
  | zero => exact inferInstanceAs innermost.Striding
  | succ n ih =>
    have hproductive := productive_levels n
    exact inferInstanceAs (levels n).around.Striding

end Grammar

instance : grammar.Striding := Grammar.striding_levels _

end JavaSyntax
