import JavaSyntax.Proofs.Grammar.Climbing
import JavaSyntax.Proofs.Grammar.Statements

/-!
# The nodes of statements

Blocks and statements yield sound nodes. The arms of a chain of conditionals become nodes
only after the whole chain is read; for that, the chain is taken as the recursion that reads
the same.
-/

namespace JavaSyntax

open Work JavaSyntax.Parser

variable {x : Tokenized}

instance : Yields x atYield (fun found => if found then .faced else .fresh) := by
  unfold atYield
  refine .free fun _ => .ask (.look fun next => .cases (fun _ => .look fun kind => ?_) fun _ => ?_)
    .pure
  · refine .pure (.refl _) ?_
    cases kind != .semicolon <;> trivial
  · refine .pure (.refl _) ?_
    cases continuesName next <;> trivial

namespace Grammar

variable {g : Grammar} [hg : g.Yielding x]

/-! ### Parts of statements -/

instance : Yields x g.blockBody Effect.covering := by
  unfold blockBody
  exact .start fun _ => .seq fun _ => .seq fun _ => .seq fun _ => .node

instance : Yields x g.condition (fun _ => .taken) := by
  unfold condition
  exact .free fun _ => .seq fun _ => .seq fun _ => .seq fun _ => .pure

instance : Yields x g.expressionEnd (fun _ => .taken) := by
  unfold expressionEnd
  exact .free fun _ => .seq fun _ => .seq fun _ => .pure

instance : Yields x jumpLabel (fun _ => .taken) := by
  unfold jumpLabel
  exact .free fun _ => .seq fun _ => .seq fun _ => .pure

instance : Yields x atVariable (fun _ => .fresh) := by
  unfold atVariable
  refine .free fun _ => .look fun kind => ?_
  split
  · exact .pure
  · exact .pure
  · exact .tail

/-! ### Conditionals -/

instance : Bears IfArm where
  pieces arm := [arm.condition.parts, arm.thenBranch.parts]

instance : Yields x g.ifArm (fun _ => .taken) := by
  unfold ifArm
  exact .start fun _ => .seq fun _ => .seq fun _ => .seq fun _ => .pure

/-- Read by the recursion, what an `else` leads to yields sound nodes. -/
theorem yields_elseBranch? (n : Nat) : Yields x (g.elseBranch? n) fun _ => .opened := by
  induction n with
  | zero =>
    rw [elseBranch?]
    exact .free fun _ => .tail
  | succ n ih =>
    rw [elseBranch?]
    refine .free fun _ => .ask (.ask (.start (fun _ => .taken) fun _ => ?_) ?_) .pure
    · refine .seq fun _ => .seq fun _ => .seq fun _ => .seq fun _ => .nodeThen (.refl _) ?_ ?_ ?_
      · trivial
      · trivial
      · exact fun _ _ => .pure
    · exact .seq fun _ => .pure

instance : Yields x g.ifStatement (fun _ => .taken) := by
  rw [ifStatement_eq]
  refine .free fun _ => .seq fun first => .observe fun s => ?_
  have := yields_elseBranch? (x := x) (g := g) (loopBound s)
  exact .seq fun _ => .pure

/-! ### Loops -/

instance : Yields x g.forEachFrom (fun _ => .opened) := by
  unfold forEachFrom
  exact .free fun _ => .seq fun _ => .seq fun _ => .seq fun _ => .seq fun _ => .seq fun _ =>
    .seq fun _ => .seq fun _ => .pure

instance : Yields x g.forInit (fun _ => .opened) := by
  unfold forInit
  refine .free fun n => .ask .pure (.ask (.seq fun modifiers => ?_) (.seq fun _ => .pure))
  exact .chain (fun _ => .taken) (localVariable_shapes n modifiers) fun _ => .pure

instance (kind : TokenKind) : Yields x (g.expressionUnless kind) (fun _ => .opened) := by
  unfold expressionUnless
  refine .free fun _ => .ask (.pure (.refl _) ?_) (.seq fun _ => .pure)
  exact Effect.Opening.andThen (e := .fresh) inferInstance inferInstance

instance : Yields x g.forFrom (fun _ => .opened) := by
  unfold forFrom
  simp only [pure_bind]
  refine .free fun _ => .seq fun _ => .seq fun _ => .seq fun _ => .seq fun _ => .ask ?_ ?_
  · exact .seq fun _ => .seq fun _ => .pure (.append_right _ (.of_eq (List.append_nil _).symm))
  · exact .seq fun _ => .seq fun _ => .seq fun _ => .pure

instance : Yields x g.forStatement (fun _ => .taken) := by
  unfold forStatement
  exact .free fun _ => .seq fun _ => .seq fun _ => .ask .tail .tail

instance : Yields x g.whileStatement (fun _ => .step) := by
  unfold whileStatement
  exact .free fun _ => .seq fun _ => .seq fun _ => .seq fun _ => .pure

instance : Yields x g.doStatement (fun _ => .step) := by
  unfold doStatement
  exact .free fun _ => .seq fun _ => .seq fun _ => .seq fun _ => .seq fun _ => .seq fun _ => .pure

/-! ### Resources and exceptions -/

instance : Yields x g.resource Effect.covering := by
  unfold resource
  refine .start fun _ => .ask ?_ (.seq fun _ => .node)
  exact .seq fun _ => .seq fun _ => .seq fun _ => .seq fun _ => .seq fun _ => .node

instance : Yields x moreResources (fun _ => .opened) := by
  unfold moreResources
  refine .free fun _ => .ask (.seq fun found => ?_) .pure
  cases found <;> exact .pure

instance : Yields x g.resources (fun _ => .taken) := by
  unfold resources
  exact .free fun _ => .seq fun _ => .seq fun _ => .seq fun _ => .seq fun _ => .pure

instance : Yields x g.catchClause Effect.covering := by
  unfold catchClause
  exact .start fun _ => .seq fun _ => .seq fun _ => .seq fun _ => .seq fun _ => .seq fun _ =>
    .seq fun _ => .seq fun _ => .node

instance : Yields x g.tryStatement (fun _ => .taken) := by
  unfold tryStatement
  refine .free fun _ => .seq fun token => .seq fun resources => .seq fun block => ?_
  refine .seq fun catches => .seq fun finallyBlock => .cases (fun _ => .fail) fun _ => ?_
  cases resources <;> exact .pure

/-! ### Constructor calls -/

/-- A constructor call holds its qualifier and its type arguments. -/
theorem constructorCallFrom_shapes (n : Nat) (qualifier : Tree (.option (.node .expression)))
    (typeArguments : List (Node .type)) (kind : ConstructorCall) :
    Shapes x n (pieces qualifier ++ pieces typeArguments) .taken
      (g.constructorCallFrom qualifier typeArguments kind) fun _ => .taken := by
  unfold constructorCallFrom
  exact .seq fun _ => .seq fun _ => .pure

instance : Yields x constructorKind (fun _ => .taken) := by
  unfold constructorKind
  exact .free fun _ => .ask .pure (.seq fun _ => .pure)

instance : Yields x g.constructorInvocation (fun _ => .taken) := by
  unfold constructorInvocation
  exact .free fun n => .seq fun typeArguments => .seq fun kind =>
    (constructorCallFrom_shapes n .absent typeArguments kind).weaken

/-! ### Declarations and expressions as statements -/

instance : Yields x atTypeDeclaration (fun _ => .fresh) := by
  unfold atTypeDeclaration
  refine .free fun _ => .look fun kind => ?_
  split
  · exact .pure
  · exact .pure
  · exact .pure
  · exact .look fun _ => .pure
  · exact .askNot .pure (.look fun _ => .cases (fun _ => .pure) fun _ => .look fun _ => .pure)
  · exact .pure

instance : Yields x atLocalModifiers (fun _ => .fresh) := by
  unfold atLocalModifiers
  refine .free fun _ => .look fun kind => ?_
  split
  · exact .pure
  · exact .pure
  · exact .pure
  · exact .pure
  · exact .pure
  · exact .ask (.look fun _ => .cases (fun _ => .pure) fun _ => .tail) .tail
  · exact .pure

instance : Yields x g.localDeclaration (fun _ => .taken) := by
  unfold localDeclaration
  refine .start fun n => .seq fun modifiers => .ask ?_ ?_
  · exact .chain Effect.covering (hg.typeDeclaration n modifiers) fun _ => .pure
  · exact .chain (fun _ => .taken) (localVariable_shapes n modifiers) fun _ => .seq fun _ => .pure

/-- An expression before `super` is held as the qualifier, with the same parts. -/
theorem parts_of_superQualifier? {tree : Tree .expression}
    {qualifier : Tree (.option (.node .expression))} (h : superQualifier? tree = some qualifier) :
    tree.parts = qualifier.parts := by
  unfold superQualifier? at h
  split at h
  · cases h
    rfl
  · cases h

instance : Yields x g.expressionStatement (fun _ => .taken) := by
  unfold expressionStatement
  refine .free fun n => .seq fun expression => ?_
  have hplain : Shapes x n [expression.parts] .taken (expect .semicolon >>= fun _ =>
      pure (Tree.expressionStatement expression)) fun _ => .taken := .seq fun _ => .pure
  cases hsuper : superQualifier? expression.inner with
  | none => exact hplain.weaken
  | some qualifier =>
    refine .ask (.unwrap (G := []) ?_) hplain.weaken
    rw [parts_of_superQualifier? hsuper]
    exact (constructorCallFrom_shapes n qualifier [] .super).weaken
      (.of_eq (List.append_nil _).symm)

instance : Yields x g.labeledStatement (fun _ => .taken) := by
  unfold labeledStatement
  exact .free fun _ => .seq fun _ => .seq fun _ => .seq fun _ => .pure

instance : Yields x g.variableOrExpression (fun _ => .taken) := by
  unfold variableOrExpression
  refine .free fun n => .ask ?_ .tail
  exact .chain (fun _ => .taken) (localVariable_shapes n []) fun _ => .seq fun _ => .pure

instance : Yields x atLocalDeclaration (fun _ => .fresh) := by
  unfold atLocalDeclaration
  exact .free fun _ => .ask .pure .tail

instance : Yields x g.plainStatement (fun _ => .taken) := by
  unfold plainStatement
  refine .free fun _ => .ask .tail (.askNot .tail (.ask (.seq fun _ => .seq fun _ => .pure) ?_))
  exact .look fun _ => .cases (fun _ => .tail) fun _ => .tail

/-! ### Any statement -/

instance : Yields x g.returnStatement (fun _ => .step) := by
  unfold returnStatement
  exact .free fun _ => .seq fun _ => .seq fun _ => .seq fun _ => .pure

instance : Yields x g.assertStatement (fun _ => .step) := by
  unfold assertStatement
  exact .free fun _ => .seq fun _ => .seq fun _ => .seq fun _ => .seq fun _ => .pure

instance : Yields x g.synchronizedStatement (fun _ => .step) := by
  unfold synchronizedStatement
  exact .free fun _ => .seq fun _ => .seq fun _ => .seq fun _ => .pure

/-- A statement that starts with a keyword takes it. -/
theorem keywordStatement_shapes (n : Nat) (keyword : Keyword) :
    Shapes x n [] .faced (g.keywordStatement keyword) fun _ => .taken := by
  unfold keywordStatement
  split
  · exact .tail
  · exact .tail
  · exact .tail
  · exact .tail
  · exact .seq fun _ => .pure
  · exact .tail
  · exact .seq fun _ => .seq fun _ => .pure
  · exact .seq fun _ => .seq fun _ => .pure
  · exact .seq fun _ => .seq fun _ => .pure
  · exact .tail
  · exact .tail
  · exact .look fun _ => .cases (fun _ => .tail) fun _ => .tail
  · exact .look fun _ => .cases (fun _ => .tail) fun _ => .tail
  · exact .look fun _ => .cases (fun _ => .tail) fun _ => .tail
  · exact .tail

instance : Yields x g.statementTree (fun _ => .taken) := by
  unfold statementTree
  refine .free fun n => .seq fun kind => ?_
  split
  · exact .seq fun block => .unwrap (G := []) .pure
  · exact .seq fun _ => .pure
  · exact .tail
  · exact (keywordStatement_shapes n _).weaken
  · exact .forget .tail

instance : Yields x g.statementBody Effect.covering := by
  unfold statementBody
  exact .start fun _ => .seq fun tree => .node (.refl _) (by cases tree <;> trivial)

end Grammar

end JavaSyntax
