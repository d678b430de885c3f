import JavaSyntax.Proofs.Grammar.Expressions

/-!
# Statements, declarations and whole files are productions

The rest of the grammar, up to the record of guarded productions itself, which is built
level by level. A chain of `else if` is read in one loop and put together afterwards; the
loop is first shown to read what the recursion over the arms reads.
-/

set_option synthInstance.maxSize 4096

namespace JavaSyntax

open JavaSyntax.Parser

namespace Grammar

/-! ### Chains of conditionals -/

/-- Reads what an `else` leads to, with the arms after it nested in the branch. -/
def elseBranch? (g : Grammar) : Nat → Parser (Option (Node .statement))
  | 0 => unexpected "end of input"
  | n + 1 => do
    if ← eatKeyword .else then
      if ← checkKeyword .if then
        let start ← position
        let _ ← expectKeyword .if
        let condition ← g.condition
        let thenBranch ← g.statement
        let nested ← elseBranch? g n
        return some (← node start (IfArm.tree ⟨start, condition, thenBranch⟩ nested))
      else return some (← g.statement)
    else return none

/-- Nothing is done after an unexpected token. -/
private theorem unexpected_bind {α β : Type} (expected : String) (f : α → Parser β) :
    unexpected expected >>= f = unexpected expected := by
  unfold unexpected
  rw [bind_assoc]
  rfl

/-- The loop over the arms, with the arms nested afterwards, reads what the recursion
reads. -/
theorem loopFor_elseStep_nestArms (g : Grammar) (n : Nat) (arms : List IfArm) :
    (loopFor g.elseStep n arms >>= fun x => nestArms x.2 x.1) =
      g.elseBranch? n >>= fun last => nestArms last arms := by
  induction n generalizing arms with
  | zero =>
    rw [loopFor, elseBranch?, unexpected_bind, unexpected_bind]
  | succ n ih =>
    generalize hstep : g.elseStep = step at ih ⊢
    have harms : step arms = g.elseStep arms := by rw [hstep]
    rw [loopFor, elseBranch?, harms, elseStep]
    simp only [bind_assoc]
    congr 1
    funext isElse
    cases isElse with
    | false => simp
    | true =>
      simp only [if_true, bind_assoc]
      congr 1
      funext isIf
      cases isIf with
      | false => simp
      | true =>
        simp [ifArm, ih, nestArms]

/-- An `if` is read by the recursion over its arms. -/
theorem ifStatement_eq (g : Grammar) :
    g.ifStatement = g.ifArm >>= fun first => get >>= fun s =>
      g.elseBranch? (loopBound s) >>= fun last => pure (first.tree last) := by
  unfold ifStatement loop
  congr 1
  funext first
  rw [bind_assoc]
  congr 1
  funext s
  calc (loopFor g.elseStep (loopBound s) [] >>= fun x =>
        nestArms x.2 x.1 >>= fun last => pure (first.tree last))
      = (loopFor g.elseStep (loopBound s) [] >>= fun x => nestArms x.2 x.1) >>= fun last =>
          pure (first.tree last) := by rw [bind_assoc]
    _ = g.elseBranch? (loopBound s) >>= fun last => pure (first.tree last) := by
      rw [loopFor_elseStep_nestArms, bind_assoc]
      simp [nestArms]

variable {m : Footing} {g : Grammar} [g.Productive]

/-! ### Statements -/

instance : Production m g.blockBody := .onAny (by unfold blockBody; infer_instance)

instance : Production m g.condition := .onAny (by unfold condition; infer_instance)

instance : Production m g.expressionEnd := .onAny (by unfold expressionEnd; infer_instance)

instance : Production m jumpLabel := .onAny (by unfold jumpLabel; infer_instance)

instance : Production m atVariable := by
  apply Production.onAny
  unfold atVariable
  refine .look inferInstance fun kind => ?_
  split <;> infer_instance

instance : Production m g.ifArm := .onAny (by unfold ifArm; infer_instance)

/-- Read by the recursion, what an `else` leads to is a production, and it may find nothing. -/
theorem looking_elseBranch? (n : Nat) : Production .looking (g.elseBranch? n) := by
  induction n with
  | zero =>
    rw [elseBranch?]
    infer_instance
  | succ n ih =>
    have hnested (start : Nat) : Production (.started start) (g.elseBranch? n) := ih.onAny
    rw [elseBranch?]
    infer_instance

instance : Production m g.ifStatement := by
  rw [ifStatement_eq]
  refine Production.onAny (.look inferInstance fun first => ?_)
  refine .bound (f := fun n => g.elseBranch? n >>= fun last => pure (first.tree last)) fun n => ?_
  exact .bind nofun (looking_elseBranch? n).onAny inferInstance

instance : Production m g.forEachFrom := .onAny (by unfold forEachFrom; infer_instance)

instance : Production m g.forInit := .onAny (by unfold forInit; infer_instance)

instance (kind : TokenKind) :
    Production m (g.expressionUnless kind) := .onAny (by unfold expressionUnless; infer_instance)

instance : Production m g.forFrom := .onAny (by unfold forFrom; infer_instance)

instance : Production m g.forStatement := .onAny (by unfold forStatement; infer_instance)

instance : Production m g.whileStatement := .onAny (by unfold whileStatement; infer_instance)

instance : Production m g.doStatement := .onAny (by unfold doStatement; infer_instance)

instance : Production m g.resource := .onAny (by unfold resource; infer_instance)

instance : Production m moreResources := .onAny (by unfold moreResources; infer_instance)

instance : Production m g.resources := .onAny (by unfold resources; infer_instance)

instance : Production m g.catchClause := .onAny (by unfold catchClause; infer_instance)

instance : Production m g.tryStatement := .onAny (by unfold tryStatement; infer_instance)

instance : Production m constructorKind := .onAny (by unfold constructorKind; infer_instance)

instance (qualifier : Tree (.option (.node .expression))) (typeArguments : List (Node .type))
    (kind : ConstructorCall) :
    Production m (g.constructorCallFrom qualifier typeArguments kind) :=
  .onAny (by unfold constructorCallFrom; infer_instance)

instance : Production m g.constructorInvocation :=
  .onAny (by unfold constructorInvocation; infer_instance)

instance : Production m atTypeDeclaration := by
  apply Production.onAny
  unfold atTypeDeclaration
  refine .look inferInstance fun kind => ?_
  split <;> infer_instance

instance : Production m atLocalModifiers := by
  apply Production.onAny
  unfold atLocalModifiers
  refine .look inferInstance fun kind => ?_
  split <;> infer_instance

instance : Production m g.localDeclaration := .onAny (by unfold localDeclaration; infer_instance)

instance : Production m g.expressionStatement := by
  apply Production.onAny
  unfold expressionStatement
  refine .look inferInstance fun expression => ?_
  dsimp only
  split <;> infer_instance

instance : Production m g.labeledStatement := .onAny (by unfold labeledStatement; infer_instance)

instance [m.Passive] : Production m g.variableOrExpression := by
  unfold variableOrExpression
  infer_instance

instance : Production m atLocalDeclaration := .onAny (by unfold atLocalDeclaration; infer_instance)

instance : Production m g.plainStatement := .onAny (by unfold plainStatement; infer_instance)

instance : Production m g.returnStatement := .onAny (by unfold returnStatement; infer_instance)

instance : Production m g.assertStatement := .onAny (by unfold assertStatement; infer_instance)

instance :
    Production m g.synchronizedStatement :=
  .onAny (by unfold synchronizedStatement; infer_instance)

instance [m.Passive] (keyword : Keyword) : Production m (g.keywordStatement keyword) := by
  unfold keywordStatement
  split <;> infer_instance

instance : Production m g.statementTree := by
  apply Production.onAny
  unfold statementTree
  refine .look inferInstance fun kind => ?_
  split <;> infer_instance

instance : Production m g.statementBody := .onAny (by unfold statementBody; infer_instance)

/-! ### Declarations -/

instance (keyword : Keyword) :
    Production m (g.typesAfter keyword) := .onAny (by unfold typesAfter; infer_instance)

instance : Production m g.permitted := .onAny (by unfold permitted; infer_instance)

instance (modifiers : List (Node .modifier)) :
    Production m (g.classDeclaration modifiers) :=
  .onAny (by unfold classDeclaration; infer_instance)

instance (modifiers : List (Node .modifier)) :
    Production m (g.interfaceDeclaration modifiers) :=
  .onAny (by unfold interfaceDeclaration; infer_instance)

instance (modifiers : List (Node .modifier)) :
    Production m (g.annotationTypeDeclaration modifiers) :=
  .onAny (by unfold annotationTypeDeclaration; infer_instance)

instance (modifiers : List (Node .modifier)) :
    Production m (g.recordDeclaration modifiers) :=
  .onAny (by unfold recordDeclaration; infer_instance)

instance (modifiers : List (Node .modifier)) (typeParameters : List (Node .typeParameter)) :
    Production m (g.constructorFrom modifiers typeParameters) :=
  .onAny (by unfold constructorFrom; infer_instance)

instance (modifiers : List (Node .modifier)) :
    Production m (g.compactConstructorFrom modifiers) :=
  .onAny (by unfold compactConstructorFrom; infer_instance)

instance : Production m g.methodBody? := .onAny (by unfold methodBody?; infer_instance)

instance (modifiers : List (Node .modifier)) (typeParameters : List (Node .typeParameter))
    (returnType : Node .type) :
    Production m (g.methodFrom modifiers typeParameters returnType) :=
  .onAny (by unfold methodFrom; infer_instance)

instance (modifiers : List (Node .modifier)) (typeParameters : List (Node .typeParameter)) :
    Production m (g.methodOrField modifiers typeParameters) :=
  .onAny (by unfold methodOrField; infer_instance)

instance [m.Passive] (className : Option String) : Production m (atClassName className) := by
  unfold atClassName
  split <;> infer_instance

instance (className : Option String) (modifiers : List (Node .modifier)) :
    Production m (g.memberAfterModifiers className modifiers) :=
  .onAny (by unfold memberAfterModifiers; infer_instance)

instance (isStatic : Bool) :
    Production m (g.initializerFrom isStatic) :=
  .onAny (by unfold initializerFrom; infer_instance)

instance (className : Option String) :
    Production m (g.memberTree className) := .onAny (by unfold memberTree; infer_instance)

instance (className : Option String) :
    Production m (g.member className) := .onAny (by unfold member; infer_instance)

instance (className : Option String) :
    Production m (g.members className) := .onAny (by unfold members; infer_instance)

instance (className : Option String) :
    Production m (g.classBodyBraces className) :=
  .onAny (by unfold classBodyBraces; infer_instance)

instance : Production m g.enumConstant := .onAny (by unfold enumConstant; infer_instance)

instance : Production m g.enumConstants := .onAny (by unfold enumConstants; infer_instance)

instance (name : String) :
    Production m (g.enumMembers name) := .onAny (by unfold enumMembers; infer_instance)

instance (modifiers : List (Node .modifier)) :
    Production m (g.enumDeclaration modifiers) :=
  .onAny (by unfold enumDeclaration; infer_instance)

instance (modifiers : List (Node .modifier)) : Production m (g.typeDeclarationTree modifiers) := by
  apply Production.onAny
  unfold typeDeclarationTree
  refine .look inferInstance fun kind => ?_
  split <;> infer_instance

instance (n : Nat) (modifiers : List (Node .modifier)) :
    Production (.started n) (g.typeDeclarationBody n modifiers) :=
  by unfold typeDeclarationBody; infer_instance

/-! ### Units -/

instance : Production m g.package? := .onAny (by unfold package?; infer_instance)

instance (names : List String) :
    Production m (importedPart names) := .onAny (by unfold importedPart; infer_instance)

instance : Production m importDeclaration := .onAny (by unfold importDeclaration; infer_instance)

instance : Production m imports := .onAny (by unfold imports; infer_instance)

instance : Production m requiresModifier? := .onAny (by unfold requiresModifier?; infer_instance)

instance : Production m targetModules := .onAny (by unfold targetModules; infer_instance)

instance : Production m g.providesFrom := .onAny (by unfold providesFrom; infer_instance)

instance : Production m g.directiveTree := .onAny (by unfold directiveTree; infer_instance)

instance : Production m g.directive := .onAny (by unfold directive; infer_instance)

instance : Production m g.atModule := .onAny (by unfold atModule; infer_instance)

instance : Production m g.moduleBody := .onAny (by unfold moduleBody; infer_instance)

instance : Production m g.moduleDeclaration := .onAny (by unfold moduleDeclaration; infer_instance)

instance : Production m g.topLevelType := .onAny (by unfold topLevelType; infer_instance)

instance : Production m g.topLevelTypes := .onAny (by unfold topLevelTypes; infer_instance)

instance : Production m g.compilationUnit := .onAny (by unfold compilationUnit; infer_instance)

/-! ### Levels -/

instance {α : Type} : Production m (refuseDepth : Parser α) :=
  .onAny (by unfold refuseDepth; infer_instance)

instance : innermost.Productive where
  annotationUse := inferInstanceAs (Production _ refuseDepth)
  elementArray := inferInstanceAs (Production _ refuseDepth)
  type := inferInstanceAs (Production _ refuseDepth)
  creationType := inferInstanceAs (Production _ refuseDepth)
  expression := inferInstanceAs (Production _ refuseDepth)
  conditional := inferInstanceAs (Production _ refuseDepth)
  unary := inferInstanceAs (Production _ refuseDepth)
  pattern := inferInstanceAs (Production _ refuseDepth)
  arrayInitializer := inferInstanceAs (Production _ refuseDepth)
  switchBody := inferInstanceAs (Production _ refuseDepth)
  block := inferInstanceAs (Production _ refuseDepth)
  statement := inferInstanceAs (Production _ refuseDepth)
  typeDeclaration _ _ := inferInstanceAs (Production _ refuseDepth)
  classBody _ := inferInstanceAs (Production _ refuseDepth)

instance : g.around.Productive where
  annotationUse := inferInstanceAs (Production _ (guarded _ _))
  elementArray := inferInstanceAs (Production _ (guarded _ _))
  type := inferInstanceAs (Production _ (guarded _ _))
  creationType := inferInstanceAs (Production _ (guarded _ _))
  expression := inferInstanceAs (Production _ (guarded _ _))
  conditional := inferInstanceAs (Production _ (guarded _ _))
  unary := inferInstanceAs (Production _ (guarded _ _))
  pattern := inferInstanceAs (Production _ (guarded _ _))
  arrayInitializer := inferInstanceAs (Production _ (guarded _ _))
  switchBody := inferInstanceAs (Production _ (guarded _ _))
  block := inferInstanceAs (Production _ (guarded _ _))
  statement := inferInstanceAs (Production _ (guarded _ _))
  typeDeclaration _ _ := inferInstanceAs (Production _ (guarded _ _))
  classBody _ := inferInstanceAs (Production _ (guarded _ _))

/-- All productions of every level are guarded productions. -/
theorem productive_levels (n : Nat) : (levels n).Productive := by
  induction n with
  | zero => exact inferInstanceAs innermost.Productive
  | succ n ih => exact inferInstanceAs (levels n).around.Productive

end Grammar

/-- All of the grammar's guarded productions are productions. -/
instance : grammar.Productive := Grammar.productive_levels _

end JavaSyntax
