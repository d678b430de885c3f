import JavaSyntax.Proofs.Grammar.ExpressionEchoes

/-!
# The grammar echoes itself

Statements, declarations and compilation units, and from them the levels of the grammar: the
innermost level refuses at tokens that match, and each level echoes itself if the one inside it
does. So does the whole grammar, from any two cursors that match.
-/

set_option synthInstance.maxSize 16384

namespace JavaSyntax

open JavaSyntax.Parser Work Mirror

namespace Grammar

variable {M : Mirror} {n : Nat}

/-! ### What is asked of statements -/

/-- Two arms are alike if they start at the same position. -/
instance : M.Likeness IfArm :=
  ⟨fun a b => a.start = b.start ∧ M.Like a.condition b.condition ∧ M.Like a.thenBranch b.thenBranch⟩

instance : M.Alike IfArm.mk IfArm.mk :=
  ⟨fun _ _ hstart _ _ hcondition _ _ hbranch => ⟨hstart, hcondition, hbranch⟩⟩

instance : M.Alike IfArm.condition IfArm.condition := ⟨fun _ _ h => h.2.1⟩

instance : M.Alike IfArm.thenBranch IfArm.thenBranch := ⟨fun _ _ h => h.2.2⟩

instance (a b : IfArm) [M.Alike a b] (e f : Option (Node .statement)) [M.Alike e f] :
    M.Alike (a.tree e) (b.tree f) := by
  unfold IfArm.tree
  infer_instance

/-- Whether an expression qualifies a constructor call does not depend on places. -/
theorem superQualifier?_bare (t : Tree .expression) :
    superQualifier? t.bare = (superQualifier? t).map Tree.bare := by
  cases t with
  | super qualifier => cases qualifier <;> rfl
  | _ => rfl

instance : M.Alike superQualifier? superQualifier? where
  like t u h := by
    have hbare := congrArg superQualifier? (show t.bare = u.bare from h)
    rw [superQualifier?_bare, superQualifier?_bare] at hbare
    generalize superQualifier? t = a at hbare ⊢
    generalize superQualifier? u = b at hbare ⊢
    cases a with
    | none =>
      cases b with
      | none => exact .none
      | some => cases hbare
    | some =>
      cases b with
      | none => cases hbare
      | some => exact .some (Option.some.inj hbare)

variable {g : Grammar} [g.Productive] [g.Striding] [hg : g.Echoing M]

/-! ### Parts of statements -/

instance : M.Echoes n g.blockBody g.blockBody := by unfold blockBody; infer_instance

instance : M.Echoes n g.condition g.condition := by unfold condition; infer_instance

instance : M.Echoes n g.expressionEnd g.expressionEnd := by unfold expressionEnd; infer_instance

instance : M.Echoes n jumpLabel jumpLabel := by unfold jumpLabel; infer_instance

instance : M.Echoes n atVariable atVariable := by
  unfold atVariable
  refine Echoes.seqPlain inferInstance fun kind => ?_
  split <;> infer_instance

/-! ### Conditionals -/

instance : M.Echoes n g.ifArm g.ifArm := by unfold ifArm; infer_instance

instance (as bs : List IfArm) [M.Alike as bs] : M.Echoes n (g.elseStep as) (g.elseStep bs) := by
  unfold elseStep
  infer_instance

/-- Chains of arms that are alike are put together alike. -/
theorem echoes_nestArms {as bs : List IfArm} (h : M.Like as bs)
    (a b : Option (Node .statement)) [hab : M.Alike a b] :
    M.Echoes n (nestArms a as) (nestArms b bs) := by
  induction h generalizing a b with
  | nil =>
    rw [nestArms, nestArms]
    infer_instance
  | @cons arm arm' arms arms' harm _ ih =>
    have : M.Alike arm arm' := ⟨harm⟩
    have hnested (r : M.Pair (Node .statement)) :
        M.Echoes n (nestArms (some r.left) arms) (nestArms (some r.right) arms') := ih _ _
    rw [nestArms, nestArms]
    infer_instance

instance (as bs : List IfArm) [h : M.Alike as bs] (a b : Option (Node .statement)) [M.Alike a b] :
    M.Echoes n (nestArms a as) (nestArms b bs) := echoes_nestArms h.like a b

instance : M.Echoes n g.ifStatement g.ifStatement := by
  unfold ifStatement
  infer_instance

/-! ### Loops -/

instance : M.Echoes n g.forEachFrom g.forEachFrom := by unfold forEachFrom; infer_instance

instance : M.Echoes n g.forInit g.forInit := by unfold forInit; infer_instance

instance (kind : TokenKind) : M.Echoes n (g.expressionUnless kind) (g.expressionUnless kind) := by
  unfold expressionUnless
  infer_instance

instance : M.Echoes n g.forFrom g.forFrom := by unfold forFrom; infer_instance

instance : M.Echoes n g.forStatement g.forStatement := by unfold forStatement; infer_instance

instance : M.Echoes n g.whileStatement g.whileStatement := by
  unfold whileStatement
  infer_instance

instance : M.Echoes n g.doStatement g.doStatement := by unfold doStatement; infer_instance

/-! ### Resources and exceptions -/

instance : M.Echoes n g.resource g.resource := by unfold resource; infer_instance

instance : M.Echoes n moreResources moreResources := by unfold moreResources; infer_instance

instance : M.Echoes n g.resources g.resources := by unfold resources; infer_instance

instance : M.Echoes n g.catchClause g.catchClause := by unfold catchClause; infer_instance

instance : M.Echoes n g.tryStatement g.tryStatement := by
  unfold tryStatement expectKeyword
  refine Echoes.demanding _ fun token hopen => Echoes.seq inferInstance fun resources =>
    Echoes.seq inferInstance fun block => Echoes.seq inferInstance fun catches =>
      Echoes.seq inferInstance fun finallyBlock => Echoes.ite inferInstance (fun _ => ?_) fun _ => ?_
  · exact Echoes.throwingThen (.broken .tryNeedsPart token.like hopen)
  · infer_instance

/-! ### Constructor calls -/

instance (a b : Tree (.option (.node .expression))) [M.Alike a b] (as bs : List (Node .type))
    [M.Alike as bs] (kind : ConstructorCall) :
    M.Echoes n (g.constructorCallFrom a as kind) (g.constructorCallFrom b bs kind) := by
  unfold constructorCallFrom
  infer_instance

instance : M.Echoes n constructorKind constructorKind := by unfold constructorKind; infer_instance

instance : M.Echoes n g.constructorInvocation g.constructorInvocation := by
  unfold constructorInvocation
  infer_instance

/-! ### Declarations and expressions as statements -/

instance : M.Echoes n atTypeDeclaration atTypeDeclaration := by
  unfold atTypeDeclaration
  refine Echoes.seqPlain inferInstance fun kind => ?_
  split <;> infer_instance

instance : M.Echoes n atLocalModifiers atLocalModifiers := by
  unfold atLocalModifiers
  refine Echoes.seqPlain inferInstance fun kind => ?_
  split <;> infer_instance

instance : M.Echoes n g.localDeclaration g.localDeclaration := by
  unfold localDeclaration
  infer_instance

instance : M.Echoes n g.expressionStatement g.expressionStatement := by
  unfold expressionStatement
  refine Echoes.seq inferInstance fun r => ?_
  have hqualifier : M.Alike (superQualifier? r.left.inner) (superQualifier? r.right.inner) :=
    inferInstance
  obtain ⟨hlike⟩ := hqualifier
  generalize superQualifier? r.left.inner = a at hlike
  generalize superQualifier? r.right.inner = b at hlike
  cases hlike with
  | some h =>
    have : M.Alike _ _ := ⟨h⟩
    dsimp only
    infer_instance
  | none => infer_instance

instance : M.Echoes n g.labeledStatement g.labeledStatement := by
  unfold labeledStatement
  infer_instance

instance : M.Echoes n g.variableOrExpression g.variableOrExpression := by
  unfold variableOrExpression
  infer_instance

instance : M.Echoes n atLocalDeclaration atLocalDeclaration := by
  unfold atLocalDeclaration
  infer_instance

instance : M.Echoes n g.plainStatement g.plainStatement := by
  unfold plainStatement
  infer_instance

/-! ### Any statement -/

instance : M.Echoes n g.returnStatement g.returnStatement := by
  unfold returnStatement
  infer_instance

instance : M.Echoes n g.assertStatement g.assertStatement := by
  unfold assertStatement
  infer_instance

instance : M.Echoes n g.synchronizedStatement g.synchronizedStatement := by
  unfold synchronizedStatement
  infer_instance

instance (keyword : Keyword) :
    M.Echoes n (g.keywordStatement keyword) (g.keywordStatement keyword) := by
  unfold keywordStatement
  split <;> infer_instance

instance : M.Echoes n g.statementTree g.statementTree := by
  unfold statementTree
  refine Echoes.seqPlain inferInstance fun kind => ?_
  split <;> infer_instance

instance : M.Echoes n g.statementBody g.statementBody := by unfold statementBody; infer_instance

/-! ### Headers -/

instance (keyword : Keyword) : M.Echoes n (g.typesAfter keyword) (g.typesAfter keyword) := by
  unfold typesAfter
  infer_instance

instance : M.Echoes n g.permitted g.permitted := by unfold permitted; infer_instance

section Headers

variable (a b : List (Node .modifier)) [M.Alike a b]

instance : M.Echoes n (g.classDeclaration a) (g.classDeclaration b) := by
  unfold classDeclaration
  infer_instance

instance : M.Echoes n (g.interfaceDeclaration a) (g.interfaceDeclaration b) := by
  unfold interfaceDeclaration
  infer_instance

instance : M.Echoes n (g.annotationTypeDeclaration a) (g.annotationTypeDeclaration b) := by
  unfold annotationTypeDeclaration
  infer_instance

instance : M.Echoes n (g.recordDeclaration a) (g.recordDeclaration b) := by
  unfold recordDeclaration
  infer_instance

end Headers

/-! ### Members -/

section Members

variable (a b : List (Node .modifier)) [M.Alike a b] (c d : List (Node .typeParameter))
  [M.Alike c d]

instance : M.Echoes n (g.constructorFrom a c) (g.constructorFrom b d) := by
  unfold constructorFrom
  infer_instance

instance : M.Echoes n (g.compactConstructorFrom a) (g.compactConstructorFrom b) := by
  unfold compactConstructorFrom
  infer_instance

instance : M.Echoes n g.methodBody? g.methodBody? := by unfold methodBody?; infer_instance

instance (t u : Node .type) [M.Alike t u] :
    M.Echoes n (g.methodFrom a c t) (g.methodFrom b d u) := by
  unfold methodFrom
  infer_instance

instance : M.Echoes n (g.methodOrField a c) (g.methodOrField b d) := by
  unfold methodOrField
  infer_instance

instance (className : Option String) :
    M.Echoes n (atClassName className) (atClassName className) := by
  unfold atClassName
  split <;> infer_instance

instance (className : Option String) :
    M.Echoes n (g.memberAfterModifiers className a) (g.memberAfterModifiers className b) := by
  unfold memberAfterModifiers
  infer_instance

end Members

instance (isStatic : Bool) :
    M.Echoes n (g.initializerFrom isStatic) (g.initializerFrom isStatic) := by
  unfold initializerFrom
  infer_instance

instance (className : Option String) :
    M.Echoes n (g.memberTree className) (g.memberTree className) := by
  unfold memberTree
  infer_instance

instance (className : Option String) : M.Echoes n (g.member className) (g.member className) := by
  unfold member
  infer_instance

instance (className : Option String) :
    M.Echoes n (g.members className) (g.members className) := by
  unfold members
  infer_instance

instance (className : Option String) :
    M.Echoes n (g.classBodyBraces className) (g.classBodyBraces className) := by
  unfold classBodyBraces
  infer_instance

/-! ### Enums -/

instance : M.Echoes n g.enumConstant g.enumConstant := by unfold enumConstant; infer_instance

instance : M.Echoes n g.enumConstants g.enumConstants := by
  unfold enumConstants
  infer_instance

instance (name : String) : M.Echoes n (g.enumMembers name) (g.enumMembers name) := by
  unfold enumMembers
  infer_instance

instance (a b : List (Node .modifier)) [M.Alike a b] :
    M.Echoes n (g.enumDeclaration a) (g.enumDeclaration b) := by
  unfold enumDeclaration
  infer_instance

instance (a b : List (Node .modifier)) [M.Alike a b] :
    M.Echoes n (g.typeDeclarationTree a) (g.typeDeclarationTree b) := by
  unfold typeDeclarationTree
  refine Echoes.seqPlain inferInstance fun kind => ?_
  split <;> infer_instance

instance (start : Nat) (a b : List (Node .modifier)) [M.Alike a b] :
    M.Echoes n (g.typeDeclarationBody start a) (g.typeDeclarationBody start b) := by
  unfold typeDeclarationBody
  infer_instance

/-! ### Compilation units -/

instance : M.Echoes n g.package? g.package? := by unfold package?; infer_instance

instance (as bs : List String) [M.Alike as bs] :
    M.Echoes n (importedPart as) (importedPart bs) := by
  unfold importedPart
  infer_instance

instance : M.Echoes n importDeclaration importDeclaration := by
  unfold importDeclaration
  infer_instance

instance : M.Echoes n imports imports := by unfold imports; infer_instance

instance : M.Echoes n requiresModifier? requiresModifier? := by
  unfold requiresModifier?
  infer_instance

instance : M.Echoes n targetModules targetModules := by unfold targetModules; infer_instance

instance : M.Echoes n g.providesFrom g.providesFrom := by unfold providesFrom; infer_instance

instance : M.Echoes n g.directiveTree g.directiveTree := by unfold directiveTree; infer_instance

instance : M.Echoes n g.directive g.directive := by unfold directive; infer_instance

instance : M.Echoes n g.atModule g.atModule := by unfold atModule; infer_instance

instance : M.Echoes n g.moduleBody g.moduleBody := by unfold moduleBody; infer_instance

instance : M.Echoes n g.moduleDeclaration g.moduleDeclaration := by
  unfold moduleDeclaration
  infer_instance

instance : M.Echoes n g.topLevelType g.topLevelType := by unfold topLevelType; infer_instance

instance : M.Echoes n g.topLevelTypes g.topLevelTypes := by unfold topLevelTypes; infer_instance

instance : M.Echoes n g.compilationUnit g.compilationUnit := by
  unfold compilationUnit
  infer_instance

/-! ### Levels -/

/-- The innermost level echoes itself: it refuses at tokens that match. -/
theorem echoing_innermost : innermost.Echoing M where
  annotationUse _ := inferInstanceAs (M.Echoes _ refuseDepth refuseDepth)
  elementArray _ := inferInstanceAs (M.Echoes _ refuseDepth refuseDepth)
  type _ := inferInstanceAs (M.Echoes _ refuseDepth refuseDepth)
  creationType _ := inferInstanceAs (M.Echoes _ refuseDepth refuseDepth)
  expression _ := inferInstanceAs (M.Echoes _ refuseDepth refuseDepth)
  conditional _ := inferInstanceAs (M.Echoes _ refuseDepth refuseDepth)
  unary _ := inferInstanceAs (M.Echoes _ refuseDepth refuseDepth)
  pattern _ := inferInstanceAs (M.Echoes _ refuseDepth refuseDepth)
  arrayInitializer _ := inferInstanceAs (M.Echoes _ refuseDepth refuseDepth)
  switchBody _ := inferInstanceAs (M.Echoes _ refuseDepth refuseDepth)
  block _ := inferInstanceAs (M.Echoes _ refuseDepth refuseDepth)
  statement _ := inferInstanceAs (M.Echoes _ refuseDepth refuseDepth)
  typeDeclaration _ _ _ _ _ := inferInstanceAs (M.Echoes _ refuseDepth refuseDepth)
  classBody _ _ := inferInstanceAs (M.Echoes _ refuseDepth refuseDepth)

/-- A level echoes itself if the one inside it does. -/
theorem echoing_around : g.around.Echoing M where
  annotationUse _ := inferInstanceAs (M.Echoes _ (guarded _ _) (guarded _ _))
  elementArray _ := inferInstanceAs (M.Echoes _ (guarded _ _) (guarded _ _))
  type _ := inferInstanceAs (M.Echoes _ (guarded _ _) (guarded _ _))
  creationType _ := inferInstanceAs (M.Echoes _ (guarded _ _) (guarded _ _))
  expression _ := inferInstanceAs (M.Echoes _ (guarded _ _) (guarded _ _))
  conditional _ := inferInstanceAs (M.Echoes _ (guarded _ _) (guarded _ _))
  unary _ := inferInstanceAs (M.Echoes _ (guarded _ _) (guarded _ _))
  pattern _ := inferInstanceAs (M.Echoes _ (guarded _ _) (guarded _ _))
  arrayInitializer _ := inferInstanceAs (M.Echoes _ (guarded _ _) (guarded _ _))
  switchBody _ := inferInstanceAs (M.Echoes _ (guarded _ _) (guarded _ _))
  block _ := inferInstanceAs (M.Echoes _ (guarded _ _) (guarded _ _))
  statement _ := inferInstanceAs (M.Echoes _ (guarded _ _) (guarded _ _))
  typeDeclaration _ _ a b hab :=
    have : M.Alike a b := ⟨hab⟩
    inferInstanceAs (M.Echoes _ (guarded _ _) (guarded _ _))
  classBody _ _ := inferInstanceAs (M.Echoes _ (guarded _ _) (guarded _ _))

/-- Every level echoes itself. -/
theorem echoing_levels (n : Nat) : (levels n).Echoing M := by
  induction n with
  | zero => exact echoing_innermost
  | succ n ih =>
    have hproductive := productive_levels n
    have hstriding := striding_levels n
    exact echoing_around (g := levels n)

end Grammar

instance {M : Mirror} : grammar.Echoing M := Grammar.echoing_levels _

end JavaSyntax
