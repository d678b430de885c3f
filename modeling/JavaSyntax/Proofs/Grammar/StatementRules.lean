import JavaSyntax.Proofs.Grammar.ExpressionRules
import JavaSyntax.Proofs.Grammar.StatementNodes

/-!
# The rules that statements keep

Blocks and the statements in them build nodes that may stand anywhere. Twice a statement is made
of what is inside another node, a block that stands for itself or the qualifier of a constructor
call: the nodes there stand below a node without special places, so they may stand anywhere too.
-/

namespace JavaSyntax

open Work JavaSyntax.Parser

variable {x : Tokenized}

namespace Grammar

variable {g : Grammar} [hg : g.Building x]

/-! ### Parts of statements -/

instance : Makes x g.blockBody Fine := by
  unfold blockBody
  exact .start fun _ => .seq fun _ => .seq fun _ => .seq fun _ => .node rfl .all trivial

instance : Makes x g.condition Fine := by
  unfold condition
  exact .free fun _ => .seq fun _ => .seq fun _ => .seq fun _ => .fine .all

instance : Makes x g.expressionEnd Fine := by
  unfold expressionEnd
  exact .free fun _ => .seq fun _ => .seq fun _ => .fine .all

/-! ### Conditionals -/

instance : Makes x g.ifArm Fine := by
  unfold ifArm
  exact .start fun _ => .seq fun _ => .seq fun _ => .seq fun _ => .fine .all

/-- Read by the recursion, what an `else` leads to may stand anywhere. -/
theorem makes_elseBranch? (n : Nat) : Makes x (g.elseBranch? n) Fine := by
  induction n with
  | zero =>
    rw [elseBranch?]
    exact .free fun _ => .refuse
  | succ n ih =>
    rw [elseBranch?]
    refine .free fun _ => .ask (.ask (.start fun _ => ?_) (.seq fun _ => .fine .all)) (.fine .all)
    exact .seq fun _ => .seq fun _ => .seq fun _ => .seq fun _ => .bind (.node rfl .all trivial)
      fun nested hnested => .pure fun _ => hnested

instance : Makes x g.ifStatement Tree.Ready := by
  rw [ifStatement_eq]
  refine .free fun _ => .seq fun first => .observe fun s => ?_
  have := makes_elseBranch? (x := x) (g := g) (loopBound s)
  exact .seq fun _ => .ready rfl .all trivial

/-! ### Loops -/

instance : Makes x g.forEachFrom Tree.Ready := by
  unfold forEachFrom
  exact .free fun _ => .seq fun _ => .seq fun _ => .seq fun _ => .seq fun _ => .seq fun _ =>
    .seq fun _ => .seq fun _ => .ready rfl .all trivial

instance : Makes x g.forInit fun init => Fine init ∧ (Tree.ofOption init).WellFormed := by
  unfold forInit
  refine .free fun n => .ask (.pure fun _ => ⟨nofun, trivial⟩)
    (.ask (.seq fun modifiers => ?_) (.seq fun _ => .pure fun hG => ⟨hG, trivial⟩))
  exact .bind (.weaken (builds_localVariable n modifiers) .all) fun tree htree =>
    .pure fun _ => htree

instance (kind : TokenKind) : Makes x (g.expressionUnless kind) Fine := by
  unfold expressionUnless
  exact .free fun _ => .ask (.pure fun _ => nofun) (.seq fun _ => .fine .all)

instance : Makes x g.forFrom Tree.Ready := by
  unfold forFrom
  simp only [pure_bind]
  refine .free fun _ => .seqWith fun init hinit => .seq fun _ => .seq fun condition =>
    .seq fun _ => .ask ?_ ?_
  · refine .seq fun _ => .seq fun body => .ready rfl (fun q hq => ?_) hinit.2
    change q ∈ (Tree.ofOption init).parts ++ (Tree.ofOption condition).parts ++ [] ++
      body.parts at hq
    rwa [List.append_nil] at hq
  · exact .seq fun _ => .seq fun _ => .seq fun _ => .ready rfl .all hinit.2

instance : Makes x g.forStatement Tree.Ready := by
  unfold forStatement
  exact .free fun _ => .seq fun _ => .seq fun _ => .ask .of_makes .of_makes

instance : Makes x g.whileStatement Tree.Ready := by
  unfold whileStatement
  exact .free fun _ => .seq fun _ => .seq fun _ => .seq fun _ => .ready rfl .all trivial

instance : Makes x g.doStatement Tree.Ready := by
  unfold doStatement
  exact .free fun _ => .seq fun _ => .seq fun _ => .seq fun _ => .seq fun _ => .seq fun _ =>
    .ready rfl .all trivial

/-! ### Resources and exceptions -/

instance : Makes x g.resource Fine := by
  unfold resource
  refine .start fun _ => .ask ?_ (.seq fun _ => .node rfl .all trivial)
  exact .seq fun _ => .seq fun _ => .seq fun _ => .seq fun _ => .seq fun _ => .node rfl .all trivial

instance : Makes x g.resources Fine := by
  unfold resources
  exact .free fun _ => .seq fun _ => .seq fun _ => .seq fun _ => .seq fun _ => .fine .all

instance : Makes x g.catchClause Fine := by
  unfold catchClause
  exact .start fun _ => .seq fun _ => .seq fun _ => .seq fun _ => .seqWith fun types htypes =>
    .seq fun _ => .seq fun _ => .seq fun _ =>
      .node rfl .all (Tree.isEmpty_ofList_of_ne_nil htypes.1)

instance : Makes x g.tryStatement Tree.Ready := by
  unfold tryStatement
  refine .free fun _ => .seq fun _ => .seq fun resources => .seq fun _ => ?_
  refine .seq fun catches => .seq fun finallyBlock => .cases (fun _ => .fail) fun hpart => ?_
  rw [Bool.not_eq_true, Bool.and_eq_false_iff, Bool.and_eq_false_iff, Option.isNone_eq_false_iff,
    or_assoc] at hpart
  refine .ready rfl (fun q hq => ?_) ?_
  · cases resources <;> exact hq
  · change (Tree.ofList (resources.getD [])).isEmpty = false ∨ (Tree.ofList catches).isEmpty = false ∨
      (Tree.ofOption finallyBlock).isPresent = true
    rwa [Tree.isEmpty_ofList, Tree.isEmpty_ofList, Tree.isPresent_ofOption]

/-! ### Constructor calls -/

/-- The constructor is called with type arguments or with a qualifier. -/
theorem builds_constructorCallFrom (n : Nat) (qualifier : Tree (.option (.node .expression)))
    {types : List (Node .type)} (htypes : Arguments types) (kind : ConstructorCall) :
    Builds x n (pieces qualifier) (g.constructorCallFrom qualifier types kind) Tree.Ready := by
  unfold constructorCallFrom
  refine .seq fun arguments => .seq fun _ => .pure fun hG => ?_
  exact ready_of_arguments htypes hG rfl rfl trivial rfl rfl

instance : Makes x g.constructorInvocation Tree.Ready := by
  unfold constructorInvocation
  exact .free fun n => .keep fun types htypes => .seq fun kind =>
    .weaken (builds_constructorCallFrom n .absent htypes kind) nofun

/-! ### Declarations and expressions as statements -/

instance : Makes x g.localDeclaration Tree.Ready := by
  unfold localDeclaration
  refine .start fun n => .seq fun modifiers => .ask ?_ ?_
  · exact .chain (.weaken (hg.typeDeclaration n n modifiers) .all) fun _ => .ready rfl .all trivial
  · exact .bind (.weaken (builds_localVariable n modifiers) .all) fun tree htree =>
      .add htree.1 (.seq fun _ => .ready rfl (fun q hq => List.mem_append_right _ hq) htree.2)

/-- Only the node of a minus sign, a class literal or type arguments has special places. -/
theorem plain_of_superQualifier? {expression : Node .expression}
    {qualifier : Tree (.option (.node .expression))} (hexpression : Fine expression)
    (h : superQualifier? expression.inner = some qualifier) : ∀ q ∈ qualifier.parts, q.Plain := by
  intro q hq
  have hkept := hexpression.plain.kept
  rw [← parts_of_superQualifier? h] at hq
  unfold superQualifier? at h
  split at h
  · rename_i hsuper
    refine hkept.plain_of_mem_children hq ?_ ?_ ?_
    · change expression.inner.negated? = none
      rw [hsuper]
      rfl
    · change expression.inner.literalType? = none
      rw [hsuper]
      rfl
    · change expression.inner.withoutTypeArguments = expression.inner
      rw [hsuper]
      rfl
  · cases h

instance : Makes x g.expressionStatement Tree.Ready := by
  unfold expressionStatement
  refine .free fun n => .seqWith fun expression hexpression => ?_
  have hplain : Builds x n [expression.parts] (expect .semicolon >>= fun _ =>
      pure (Tree.expressionStatement expression)) Tree.Ready :=
    .seq fun _ => .ready rfl .all trivial
  cases hsuper : superQualifier? expression.inner with
  | none => exact hplain.weaken .all
  | some qualifier =>
    have hqualifier : Fine qualifier := plain_of_superQualifier? hexpression hsuper
    have hnone : Arguments [] := List.forall_mem_nil _
    have hcall := builds_constructorCallFrom (x := x) (g := g) n qualifier hnone .super
    exact .ask (.forget (.add hqualifier hcall)) (hplain.weaken .all)

instance : Makes x g.labeledStatement Tree.Ready := by
  unfold labeledStatement
  exact .free fun _ => .seq fun _ => .seq fun _ => .seq fun _ => .ready rfl .all trivial

instance : Makes x g.variableOrExpression Tree.Ready := by
  unfold variableOrExpression
  refine .free fun n => .ask ?_ .of_makes
  exact .bind (.weaken (builds_localVariable n []) .all) fun tree htree =>
    .add htree.1 (.seq fun _ => .ready rfl .all htree.2)

instance : Makes x g.plainStatement Tree.Ready := by
  unfold plainStatement
  refine .free fun _ => .ask .of_makes (.askNot .of_makes (.ask ?_ ?_))
  · exact .seq fun _ => .seq fun _ => .ready rfl .all trivial
  · exact .seq fun _ => .cases (fun _ => .of_makes) fun _ => .of_makes

/-! ### Any statement -/

instance : Makes x g.returnStatement Tree.Ready := by
  unfold returnStatement
  exact .free fun _ => .seq fun _ => .seq fun _ => .seq fun _ => .ready rfl .all trivial

instance : Makes x g.assertStatement Tree.Ready := by
  unfold assertStatement
  exact .free fun _ => .seq fun _ => .seq fun _ => .seq fun _ => .seq fun _ =>
    .ready rfl .all trivial

instance : Makes x g.synchronizedStatement Tree.Ready := by
  unfold synchronizedStatement
  exact .free fun _ => .seq fun _ => .seq fun _ => .seq fun _ => .ready rfl .all trivial

instance (keyword : Keyword) : Makes x (g.keywordStatement keyword) Tree.Ready := by
  unfold keywordStatement
  refine .free fun _ => ?_
  split
  · exact .of_makes
  · exact .of_makes
  · exact .of_makes
  · exact .of_makes
  · refine .seqWith ?_
    rintro ⟨selector, body⟩ hparts
    exact .ready rfl .all hparts.2
  · exact .of_makes
  · exact .seq fun _ => .seq fun _ => .ready rfl .all trivial
  · exact .seq fun _ => .seq fun _ => .ready rfl .all trivial
  · exact .seq fun _ => .seq fun _ => .ready rfl .all trivial
  · exact .of_makes
  · exact .of_makes
  · exact .seq fun _ => .cases (fun _ => .of_makes) fun _ => .of_makes
  · exact .seq fun _ => .cases (fun _ => .of_makes) fun _ => .of_makes
  · exact .seq fun _ => .cases (fun _ => .of_makes) fun _ => .of_makes
  · exact .of_makes

instance : Makes x g.statementTree Tree.Ready := by
  unfold statementTree
  refine .free fun n => .keep fun kind _ => ?_
  split
  · refine .keep fun block hblock => .pure fun _ => .of_isOrdinary rfl (fun q hq => ?_) trivial
    have hspecial (t : Tree .block) :
        t.negated? = none ∧ t.literalType? = none ∧ t.withoutTypeArguments = t := by
      cases t
      exact ⟨rfl, rfl, rfl⟩
    obtain ⟨hnegated, htype, harguments⟩ := hspecial block.inner
    exact hblock.plain.kept.plain_of_mem_children hq hnegated htype harguments
  · exact .seq fun _ => .ready rfl .all trivial
  · exact .of_makes
  · exact .of_makes
  · exact .of_makes

instance : Makes x g.statementBody Fine := by
  unfold statementBody
  exact .start fun _ => .keep fun tree htree => .nodeOf (fun _ => htree) (by cases tree <;> rfl)

end Grammar

end JavaSyntax
