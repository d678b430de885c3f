import JavaSyntax.Proofs.Grammar.Nesting
import JavaSyntax.Proofs.Grammar.TypeNodes

/-!
# The nodes of expressions

Switches, primary expressions with their selectors, and operators yield sound nodes. Binary
operators need more than the other productions: where an operand ends decides which operator
can come next, so the operators that follow are part of what is shown about each operand.
-/

namespace JavaSyntax

open Work JavaSyntax.Parser

variable {x : Tokenized}

/-! ### Questions -/

namespace Parser

instance : Yields x atPattern (fun _ => .fresh) := by
  unfold atPattern
  infer_instance

instance : Yields x atLocalVariable (fun _ => .fresh) := by
  unfold atLocalVariable
  infer_instance

instance : Yields x atEnhancedFor (fun _ => .fresh) := by
  unfold atEnhancedFor
  infer_instance

instance : Yields x typePrimary? (fun _ => .fresh) := by
  unfold typePrimary?
  infer_instance

instance : Yields x classifyParen (fun _ => .fresh) := by
  unfold classifyParen
  exact .free fun _ => .look fun _ => .look fun _ => .observe fun _ =>
    .cases (fun _ => .look fun _ => .pure) fun _ => .pure

end Parser

/-! ### Operands -/

namespace Shapes

variable {α : Type} [Bears α] {n : Nat} {G : List (List Part)} {e : Effect} {effect : α → Effect}

/-- A node that can be an operand is made of the nodes so far. -/
theorem operandNode {tree : Tree .expression}
    (hparts : (Part.join G).Perm tree.parts := by exact List.Perm.refl _)
    (hgrouped : tree.Grouped := by trivial) (he : e.Le .taken := by trivial)
    (hoperand : tree.isOperand = true := by rfl) :
    Shapes x n G e (Parser.node n tree) Effect.operand := by
  refine .node hparts hgrouped he ?_
  intro a ha
  rw [Effect.operand, ha, if_pos hoperand]
  exact .refl _

/-- What was read is made an operand, and the rest goes on from there. -/
theorem operandThen {tree : Tree .expression} {k : Node .expression → Parser α}
    (hk : ∀ a : Node .expression, Shapes x n [a.parts] (.operand a) (k a) effect)
    (hparts : (Part.join G).Perm tree.parts := by exact List.Perm.refl _)
    (hgrouped : tree.Grouped := by trivial) (he : e.Le .taken := by trivial)
    (hoperand : tree.isOperand = true := by rfl) :
    Shapes x n G e (Parser.node n tree >>= k) effect := by
  have hnode : Shapes x n G e (Parser.node n tree) Effect.operand :=
    .operandNode hparts hgrouped he hoperand
  exact .chain Effect.operand hnode hk (.refl _) (.refl _)

/-- The next step yields an operand. -/
theorem seqOperand {p : Parser (Node .expression)} {f : Node .expression → Parser α}
    [Yields x p Effect.operand]
    (hf : ∀ a : Node .expression, a.inner.isOperand = true →
      Shapes x n (G ++ [a.parts]) (e.andThen (.covering a)) (f a) effect) :
    Shapes x n G e (p >>= f) effect := by
  refine .seq fun a => ?_
  by_cases ha : a.inner.isOperand = true
  · rw [Effect.operand, if_pos ha]
    exact hf a ha
  · rw [Effect.operand, if_neg ha, Effect.andThen_never]
    exact .vacuous

/-- What was read so far is an operand. -/
theorem ofOperand {a : Node .expression} {p : Parser α}
    (h : a.inner.isOperand = true → Shapes x n G (.covering a) p effect) :
    Shapes x n G (.operand a) p effect := by
  by_cases ha : a.inner.isOperand = true
  · rw [Effect.operand, if_pos ha]
    exact h ha
  · rw [Effect.operand, if_neg ha]
    exact .vacuous

/-- A node is replaced by one without children that stands in the same place. -/
theorem retype {f f' : Form} {a : Node f} {b : Node f'} {p : Parser α}
    (h : Shapes x n [b.parts] e p effect) (hspan : b.span = a.span) (hsource : b.source = a.source)
    (hparts : b.inner.parts = []) (hgrouped : b.inner.Grouped)
    (hform : f' ≠ .switchRule := by decide) : Shapes x n [a.parts] e p effect where
  run hc hn hstretch hrun := by
    refine h.run hc hn ⟨hstretch.course, hstretch.passed_eq, ?_, hstretch.holds⟩ hrun
    have hfits := hstretch.fits
    change Fits x _ a.parts at hfits
    change Fits x _ b.parts
    rw [Tree.parts_node] at hfits ⊢
    exact hfits.retype hspan hsource hparts hgrouped (Part.ruled_of_ne hform)

end Shapes

namespace Grammar

variable {g : Grammar} [hg : g.Yielding x]

/-! ### Switches -/

instance : Yields x atNullLabel (fun found => if found then .faced else .fresh) := by
  unfold atNullLabel
  refine .free fun _ => .ask (.seq fun kind => .pure (.refl _) ?_) .pure
  cases endsCaseLabel kind <;> trivial

instance : Yields x g.caseLabelTree (fun _ => .taken) := by
  unfold caseLabelTree
  refine .free fun _ => .ask (.seq fun _ => .pure) (.ask .pure (.ask ?_ ?_))
  · exact .seq fun _ => .pure
  · exact .seq fun _ => .pure

instance : Yields x g.caseLabel Effect.covering := by
  unfold caseLabel
  exact .start fun _ => .seq fun tree => .node (.refl _) (by cases tree <;> trivial)

instance : Yields x g.caseGuard? (fun _ => .opened) := by
  unfold caseGuard?
  exact .free fun _ => .ask (.seq fun _ => .pure) .pure

omit hg in
/-- The first token of a label is its keyword, and it stands outside all groups that the rest
opens. -/
theorem labels_of_switchLabel [g.Nesting] {s s' : ParserState} {label : Node .switchLabel}
    {ts : List Token} (hs : s.cursor.On x) (hrun : g.switchLabel s = (.ok label, s'))
    (hts : s'.cursor.passed = s.cursor.passed ++ ts) : Labels label ts := by
  unfold switchLabel at hrun
  obtain ⟨found, s₁, hfound, hrun⟩ := bind_eq_ok hrun
  have hcheck : Tells (checkKeyword .default) [] [.keyword .default] := inferInstance
  have hyields : Yields x (checkKeyword .default) fun found => if found then .faced else .fresh :=
    inferInstance
  obtain ⟨us, hlook⟩ := hyields.run hs hfound
  have hs₁ := hlook.on hs
  cases found with
  | true =>
    obtain ⟨rfl, -⟩ := hlook.holds
    have hsees := hcheck.sees hs.settled (.nil _) hfound
    obtain ⟨start, s₂, hstart, hrun⟩ := bind_eq_ok hrun
    cases hstart
    obtain ⟨keyword, s₃, hkeyword, hrun⟩ := bind_eq_ok hrun
    obtain ⟨hkind, htaken⟩ := Nests.stretch_of_advance hs₁ hsees rfl hkeyword
    cases hrun
    have hpassed := htaken.passed_eq
    rw [hlook.passed_eq, List.append_nil] at hpassed
    obtain rfl := List.append_cancel_left (hts.symm.trans hpassed)
    exact ⟨keyword, [], rfl, .inr ⟨hkind, rfl⟩, rfl⟩
  | false =>
    obtain ⟨rfl, -⟩ := hlook.holds
    obtain ⟨start, s₂, hstart, hrun⟩ := bind_eq_ok hrun
    cases hstart
    obtain ⟨keyword, s₃, hkeyword, hrun⟩ := bind_eq_ok hrun
    obtain ⟨hkind, htaken⟩ := Nests.stretch_of_expect hs₁ rfl hkeyword
    have hrest (start : Nat) : Nests .always [] 0 (withLambdas false do
        let labels ← separatedBy .comma g.caseLabel
        let guard ← g.caseGuard?
        node start (.switchLabel (.ofList labels) (.ofOption guard))) 0 := inferInstance
    obtain ⟨-, hpassage⟩ := (hrest _).run (htaken.on hs₁).settled (.nil _) hrun
    obtain ⟨between, hbetween, hnest⟩ := hpassage.nest_eq
    rw [htaken.passed_eq, hlook.passed_eq, List.append_nil, List.append_assoc] at hbetween
    obtain rfl := List.append_cancel_left (hts.symm.trans hbetween)
    exact ⟨keyword, between, rfl, .inl hkind, hnest⟩

/-- The label of a switch covers all that is read for it. -/
theorem covering_switchLabel : Yields x g.switchLabel Effect.covering := by
  unfold switchLabel defaultLabel
  refine .free fun _ => .ask (.startFaced Effect.covering fun _ => .seq fun _ => ?_)
    (.start Effect.covering fun _ => .seq fun _ => .withLambdas ?_)
  · refine .nodeThen (.refl _) trivial trivial fun label _ => .node ?_
    exact .of_eq ((List.append_nil _).trans (List.append_nil _)).symm
  · exact .seq fun _ => .seq fun _ => .node

instance [g.Nesting] : Yields x g.switchLabel Effect.labelled where
  run hs hrun := by
    obtain ⟨ts, hstretch⟩ := covering_switchLabel.run hs hrun
    refine ⟨ts, hstretch.course, hstretch.passed_eq, hstretch.fits, hstretch.holds.1,
      hstretch.holds.2, labels_of_switchLabel hs hrun hstretch.passed_eq⟩

instance : Yields x atSwitchLabel (fun found => if found then .faced else .fresh) := by
  unfold atSwitchLabel
  refine .free fun _ => .ask .pure (.ask (.seq fun kind => .pure (.refl _) ?_) .pure)
  cases kind == .colon || kind == .arrow <;> trivial

instance : Yields x g.ruleBody (fun _ => .taken) := by
  unfold ruleBody
  refine .free fun _ => .look fun kind => ?_
  split
  · exact .seq fun _ => .pure
  · exact .seq fun _ => .pure
  · exact .seq fun _ => .seq fun _ => .pure

/-- A rule of a switch starts with its label, and an arrow stands right behind that. -/
theorem ruleFrom_shapes (n : Nat) (label : Node .switchLabel) :
    Shapes x n (pieces label) (.labelled label) (g.ruleFrom n label) Effect.covering where
  run {c s s' rule ts} hc hn hlabel hrun := by
    subst hn
    obtain ⟨arrow, s₁, harrow, hrun⟩ := bind_eq_ok hrun
    obtain ⟨body, s₂, hbody, hrun⟩ := bind_eq_ok hrun
    cases hrun
    obtain ⟨hkind, hpast⟩ := Nests.stretch_of_expect (hlabel.on hc) rfl harrow
    have hreached := hlabel.trans hc hpast
    obtain ⟨us, hus⟩ := Yields.run (hreached.on hc) hbody
    have hwhole := hreached.trans hc hus
    have hparts : Part.join (pieces label) ++ [] ++ Part.join (pieces body) =
        (Tree.switchRule label body).parts := by
      rw [List.append_nil]
      rfl
    rw [hparts] at hwhole
    have hpassed : s'.cursor.passed = c.passed ++ ts ++ arrow :: us := by
      rw [hwhole.passed_eq]
      simp
    refine ⟨_, hwhole.node hc trivial trivial rfl ?_⟩
    rintro rule label' body' ⟨⟩ ⟨⟩
    obtain ⟨-, hcovers, hlabels⟩ := hlabel.holds
    exact hlabels.exists_arrowIn (hwhole.on hc) hpassed hcovers hkind hus.fits

instance [g.Nesting] : Yields x g.rule Effect.covering := by
  unfold rule
  exact .start fun n => .seq fun label => (ruleFrom_shapes n label).weaken

instance [g.Nesting] : Yields x g.labelWithColon (fun _ => .taken) := by
  unfold labelWithColon
  exact .free fun _ => .seq fun _ => .seq fun _ => .pure

instance : Yields x atGroupStatement (fun _ => .fresh) := by
  unfold atGroupStatement
  exact .free fun _ => .ask .pure (.seq fun found => by cases found <;> exact .pure)

/-- A group of a switch starts with its first label and holds its statements. -/
theorem groupFrom_shapes [g.Nesting] (n : Nat) (label : Node .switchLabel) :
    Shapes x n (pieces label) .taken (g.groupFrom n label) Effect.covering := by
  unfold groupFrom
  exact .seq fun _ => .seq fun _ => .node

instance [g.Nesting] : Yields x g.group Effect.covering := by
  unfold group
  exact .start fun n => .seq fun label => (groupFrom_shapes n label).weaken

instance [g.Nesting] : Yields x g.switchCases (fun _ => .opened) := by
  unfold switchCases
  refine .free fun _ => .ask .pure (.start (fun _ => .taken) fun n => .seq fun label => .ask ?_ ?_)
  · exact .chain Effect.covering (ruleFrom_shapes n label) fun _ => .seq fun _ => .pure
  · exact .seq fun _ => .chain Effect.covering (groupFrom_shapes n label) fun _ =>
      .seq fun _ => .pure

instance : Yields x g.switchParts (fun _ => .taken) := by
  unfold switchParts
  exact .free fun _ => .seq fun _ => .seq fun _ => .seq fun _ => .seq fun _ => .seq fun _ =>
    .seq fun _ => .seq fun _ => .pure

/-! ### Lambdas and references -/

instance : Yields x g.lambdaBody (fun _ => .taken) := by
  unfold lambdaBody
  exact .free fun _ => .ask (.seq fun _ => .pure) (.seq fun _ => .pure)

/-- A lambda is an operand that holds its parameters and its body. -/
theorem lambdaFrom_shapes (n : Nat) (parameters : Tree .lambdaParameters) :
    Shapes x n (pieces parameters) .taken (g.lambdaFrom n parameters) Effect.operand := by
  unfold lambdaFrom
  exact .seq fun _ => .seq fun _ => .operandNode

instance : Yields x referenceName (fun _ => .taken) := by
  unfold referenceName
  exact .free fun _ => .ask .pure .tail

/-- A reference to a method is an operand that holds its target. -/
theorem methodReference_shapes (n : Nat) (target : Tree .referenceTarget) :
    Shapes x n (pieces target) .taken (g.methodReference n target) Effect.operand := by
  unfold methodReference
  exact .seq fun _ => .seq fun _ => .seq fun _ => .operandNode

/-- A type before `.class` or `::` is held by the operand that it starts. -/
theorem typePrimaryFrom_shapes (n : Nat) (type : Node .type) :
    Shapes x n (pieces type) .taken (g.typePrimaryFrom n type) Effect.operand := by
  unfold typePrimaryFrom
  refine .ask (methodReference_shapes n (.typeTarget type)).weaken ?_
  exact .seq fun _ => .seq fun _ => .operandNode

/-! ### Creations -/

/-- A dimension of a new array. -/
structure NewDimension where
  annotations : List (Node .annotationUse)
  size : Option (Node .expression)

def NewDimensions.add (d : NewDimensions) : NewDimension → NewDimensions
  | ⟨annotations, none⟩ =>
    { d with extra := d.extra + 1, annotations := annotations :: d.annotations }
  | ⟨annotations, some size⟩ =>
    { d with sizes := size :: d.sizes, annotations := annotations :: d.annotations }

/-- Reads one more dimension of a new array, if there is one, which may have a size or may
not. -/
def newDimension? (g : Grammar) (sized : Bool) : Parser (Option NewDimension) := do
  let start ← position
  let annotations ← g.annotations
  if !(← check .leftBracket) then
    if annotations.isEmpty then return none else unexpected "'['"
  else if (← peekKind 1) == .rightBracket then
    let _ ← advance
    let _ ← advance
    return some ⟨annotations, none⟩
  else if sized then
    let _ ← advance
    let size ← withLambdas true g.expression
    let _ ← expect .rightBracket
    return some ⟨annotations, some size⟩
  else
    restore start
    return none

/-- A round of the loop over new dimensions reads one more, or is the last. -/
theorem newDimension_eq (d : NewDimensions) :
    g.newDimension d = g.newDimension? (d.extra == 0) >>= fun found =>
      pure (found.elim (.done d) fun dimension => .again (d.add dimension)) := by
  unfold newDimension newDimension?
  simp only [bind_assoc]
  refine bind_congr fun start => bind_congr fun annotations => bind_congr fun found => ?_
  cases found with
  | false => cases annotations <;> simp [unexpected]
  | true =>
    simp only [Bool.not_true, Bool.false_eq_true, if_false, bind_assoc]
    refine bind_congr fun kind => ?_
    by_cases hkind : kind = .rightBracket
    · simp [hkind, NewDimensions.add]
    · by_cases hextra : d.extra = 0 <;> simp [hkind, hextra, NewDimensions.add]

instance : Bears NewDimension where
  pieces d := [(Tree.ofList d.annotations).parts, (Tree.ofOption d.size).parts]

instance : Bears (Option NewDimension) := ⟨fun d => d.elim [] pieces⟩

instance : Bears NewDimensions where
  pieces d := [(Tree.ofList d.sizes).parts, (Tree.ofList (d.annotations.map .ofList)).parts]

/-- The parts of one more dimension are added to those of the others. -/
theorem NewDimensions.perm_add (d : NewDimensions) (dimension : NewDimension) :
    (Part.join (pieces d ++ pieces dimension)).Perm (Part.join (pieces (d.add dimension))) := by
  obtain ⟨annotations, size⟩ := dimension
  have hannotations : ((Tree.ofList (d.annotations.map .ofList)).parts ++
      (Tree.ofList annotations).parts).Perm
      (Tree.ofList ((annotations :: d.annotations).map .ofList)).parts := List.perm_append_comm
  cases size with
  | none =>
    change List.Perm (_ ++ _ ++ _ ++ []) (_ ++ _)
    rw [List.append_nil, List.append_assoc]
    exact hannotations.append_left _
  | some size =>
    change List.Perm (_ ++ _ ++ _ ++ _) (_ ++ _ ++ _)
    rw [List.append_assoc (Tree.ofList d.sizes).parts]
    exact List.perm_append_comm.trans
      ((hannotations.append_left _).append_left _ |>.trans (.of_eq (List.append_assoc ..).symm))

instance (sized : Bool) : Yields x (g.newDimension? sized) (fun _ => .opened) := by
  unfold newDimension?
  refine .start fun _ => .seq fun annotations => .askNot (.cases (fun hempty => ?_) fun _ => .tail)
    (.look fun kind => .cases (fun _ => ?_) fun _ => .cases (fun _ => ?_) fun _ => .goBack .pure)
  · obtain rfl : annotations = [] := by simpa using hempty
    exact .pure
  · exact .seq fun _ => .seq fun _ => .pure (.of_eq (List.append_nil _).symm)
  · exact .seq fun _ => .seq fun _ => .seq fun _ => .pure

instance : Yields x (loop g.newDimension {}) (fun _ => .opened) := by
  refine .free fun _ => .loop (I := fun _ => .opened) fun d => ?_
  rw [newDimension_eq]
  refine .seq fun found => ?_
  cases found with
  | none => exact .pure
  | some dimension => exact .pure (d.perm_add dimension)

/-- The tree of a new array. -/
def NewDimensions.tree (d : NewDimensions) (element : Node .type)
    (initializer : Option (Node .expression)) : Tree .expression :=
  .arrayCreation element (.ofList d.sizes.reverse) d.extra
    (.ofList (d.annotations.reverse.map .ofList)) (.ofOption initializer)

/-- A new array holds its element type, its dimensions and its initializer. -/
theorem NewDimensions.perm_tree (d : NewDimensions) (element : Node .type)
    (initializer : Option (Node .expression)) :
    (Part.join (pieces element ++ pieces d ++ pieces initializer)).Perm
      (d.tree element initializer).parts := by
  refine .append_right _ (.append (.append_left _ ?_) ?_)
  · exact Listed.perm_reverse d.sizes
  · rw [List.map_reverse]
    exact Listed.perm_reverse (d.annotations.map Tree.ofList)

/-- A new array is an operand that holds its element type. -/
theorem arrayCreation_shapes (n : Nat) (element : Node .type) :
    Shapes x n (pieces element) .taken (g.arrayCreation n element) Effect.operand := by
  unfold arrayCreation
  simp only [map_eq_pure_bind, bind_assoc, pure_bind]
  refine .seq fun d => ?_
  have hnode (initializer : Option (Node .expression)) :
      Shapes x n (pieces element ++ pieces d ++ pieces initializer) .taken
        (node n (d.tree element initializer)) Effect.operand :=
    .operandNode (d.perm_tree element initializer)
  exact .cases (fun _ => .seq fun initializer => (hnode (some initializer)).weaken)
    fun _ => (hnode none).weaken (.of_eq (List.append_nil _).symm)

/-- A new object is an operand that holds all that was read before its arguments. -/
theorem objectCreation_shapes (n : Nat) (outer : Option (Node .expression))
    (typeArguments : List (Node .type)) (type : Node .type) :
    Shapes x n (pieces outer ++ pieces typeArguments ++ pieces type) .taken
      (g.objectCreation n outer typeArguments type) Effect.operand := by
  unfold objectCreation
  exact .seq fun _ => .seq fun _ => .operandNode

/-- Whatever is created is an operand that holds the object outside of it. -/
theorem creation_shapes (n : Nat) (outer : Option (Node .expression)) :
    Shapes x n (pieces outer) .opened (g.creation n outer) Effect.operand := by
  unfold creation
  refine .seq fun _ => .seq fun typeArguments => .seq fun type => .cases (fun hplain => .ask ?_ ?_)
    fun _ => ?_
  · simp only [Bool.and_eq_true, Option.isNone_iff_eq_none, List.isEmpty_iff] at hplain
    obtain ⟨rfl, rfl⟩ := hplain
    exact (arrayCreation_shapes n type).weaken
  · exact (objectCreation_shapes n outer typeArguments type).weaken
  · exact (objectCreation_shapes n outer typeArguments type).weaken

/-! ### Primaries -/

instance (next : TokenKind) : Yields x (atTypePrimary next) (fun _ => .fresh) := by
  unfold atTypePrimary
  exact .free fun _ => .cases (fun _ => .look fun _ => .pure) fun _ => .pure

/-- What starts with a name is an operand: the name, a call, a lambda or a reference. -/
theorem namePrimary_shapes (n : Nat) : Shapes x n [] .faced (g.namePrimary n) Effect.operand := by
  unfold namePrimary
  refine .look fun next => .observe fun s => .cases (fun _ => .seq fun name => ?_) fun _ =>
    .ask (.seq fun type => ?_) (.seq fun name => .ask (.seq fun arguments => ?_) ?_)
  · exact (lambdaFrom_shapes n (.implicitParameters [name] false)).weaken
  · exact (typePrimaryFrom_shapes n type).weaken
  · exact .operandNode
  · exact .operandNode

/-- An expression in parentheses is an operand that holds it. -/
theorem parenthesized_shapes (n : Nat) :
    Shapes x n [] .faced (g.parenthesized n) Effect.operand := by
  unfold parenthesized
  exact .seq fun _ => .seq fun _ => .seq fun _ => .operandNode

/-- What starts with a keyword is an operand. -/
theorem keywordPrimary_shapes (n : Nat) (keyword : Keyword) :
    Shapes x n [] .faced (g.keywordPrimary n keyword) Effect.operand := by
  unfold keywordPrimary
  split
  · exact .seq fun _ => .operandNode
  · exact .seq fun _ => .operandNode
  · exact (creation_shapes n none).weaken
  · exact .seq fun _ => .operandNode
  · exact .cases (fun _ => .seq fun type => (typePrimaryFrom_shapes n type).weaken) fun _ => .tail

instance : Yields x g.primary Effect.operand := by
  unfold primary
  refine .start fun n => .seq fun kind => ?_
  split
  · exact (namePrimary_shapes n).weaken
  · exact (parenthesized_shapes n).weaken
  · exact (keywordPrimary_shapes n _).weaken
  · exact .forget (.cases (fun _ => .seq fun _ => .operandNode) fun _ => .tail)

/-! ### Selectors -/

/-- The type that is made of a name has no parts, for it has neither annotations nor arguments. -/
theorem parts_plainClassType (names : List String) : (plainClassType names).parts = [] := by
  induction names with
  | nil => rfl
  | cons name names ih => exact ih

/-- What was read as a name before `.class` is held as a type at the same place. -/
theorem classLiteral_shapes (n : Nat) (target : Node .expression) :
    Shapes x n (pieces target) .taken (classLiteral n target) Effect.operand := by
  unfold classLiteral
  cases target.qualifiedName? with
  | none => exact .tail
  | some names =>
    have hnode : Shapes x n [(Tree.located (plainClassType names) target.span target.source).parts]
        .taken (node n (.classLiteral (.located (plainClassType names) target.span target.source)))
        Effect.operand := .operandNode
    have hretype : Shapes x n (pieces target) .taken _ Effect.operand :=
      hnode.retype rfl rfl (parts_plainClassType names) trivial
    refine .seq fun _ => ?_
    exact hretype

/-- A member of an operand is an operand that holds it. -/
theorem dotSelector_shapes (n : Nat) (target : Node .expression) :
    Shapes x n (pieces target) .taken (g.dotSelector n target) Effect.operand := by
  unfold dotSelector
  refine .look fun kind => ?_
  split
  · exact .seq fun _ => .seq fun _ => .seq fun _ => .operandNode
  · exact .seq fun _ => .operandNode
  · exact .seq fun _ => .operandNode
  · exact (creation_shapes n (some target)).weaken
  · exact (classLiteral_shapes n target).weaken
  · refine .seq fun _ => .ask (.seq fun arguments => .operandNode ?_) .operandNode
    exact .append_right _ (.of_eq (List.append_nil _).symm)

/-- An operand with selectors behind it is an operand again. -/
theorem selectors_shapes (n : Nat) (target : Node .expression) :
    Shapes x n (pieces target) (.operand target) (g.selectors n target) Effect.operand := by
  unfold selectors
  refine .loop (I := Effect.operand) (fun target => .ofOperand fun htarget => ?_) (.refl _)
    (.refl _)
  unfold selector
  refine .look fun kind => ?_
  split
  · refine .seq fun _ => .chain Effect.operand (dotSelector_shapes n target) fun _ => ?_
    exact .pure (.refl _) (.refl _)
  · exact .seq fun _ => .seq fun _ => .seq fun _ => .operandThen fun _ => .pure (.refl _) (.refl _)
  · refine .chain Effect.operand (methodReference_shapes n (.expressionTarget target)) fun _ => ?_
    exact .pure (.refl _) (.refl _)
  · split
    · refine .pure (.refl _) ?_
      simp only [Effect.operand, if_pos htarget, Effect.Le.refl]
    · exact .seq fun _ => .operandThen (fun _ => .pure (.refl _) (.refl _)) (.refl _)
        (Tree.isLoose_of_isOperand htarget)

/-! ### Before an operand -/

/-- A cast is an operand that holds its type and what is cast. -/
theorem castFrom_shapes (n : Nat) : Shapes x n [] .fresh (g.castFrom n) Effect.operand := by
  unfold castFrom
  exact .seq fun _ => .seq fun _ => .seq fun _ => .seqOperand fun operand hoperand =>
    .operandNode (.refl _) (Tree.isLoose_of_isOperand hoperand)

instance : Yields x implicitParameters (fun _ => .taken) := by
  unfold implicitParameters
  simp only [pure_bind]
  exact .free fun _ => .seq fun _ => .ask (.seq fun _ => .pure) (.seq fun _ => .seq fun _ => .pure)

instance (kind : ParenKind) : Yields x (g.lambdaParameters kind) (fun _ => .taken) := by
  unfold lambdaParameters
  exact .free fun _ => .cases (fun _ => .seq fun _ => .pure) fun _ => .tail

instance (kind : TokenKind) : Yields x (atNegativeLiteral kind)
    (fun found => if found = true ∧ kind ≠ .minus then .never else .fresh) := by
  unfold atNegativeLiteral
  refine .free fun _ => .cases (fun hkind => .look fun _ => .pure (.refl _) ?_) fun _ => .pure
  rw [if_neg fun h => h.2 hkind]
  exact .refl _

/-- A literal with a minus sign is one operand. -/
theorem negativeLiteral_shapes (n : Nat) :
    Shapes x n [] .faced (negativeLiteral n) Effect.operand := by
  have hliteral : Yields x (position >>= fun start => literal true >>= fun literal =>
      node start (.literal literal)) Effect.operand := .start fun _ => .seq fun _ => .operandNode
  have hassoc : negativeLiteral n = Parser.advance >>= fun _ => (position >>= fun start =>
      literal true >>= fun literal => node start (.literal literal)) >>= fun operand =>
        node n (.unary .minus operand) := by
    simp only [negativeLiteral, bind_assoc]
  rw [hassoc]
  exact .seq fun _ => .seqOperand fun operand hoperand =>
    .operandNode (.refl _) (Tree.isLoose_of_isOperand hoperand)

/-- An operand with operators behind it is an operand again. -/
theorem postfixExpression_shapes (n : Nat) :
    Shapes x n [] .fresh (g.postfixExpression n) Effect.operand := by
  unfold postfixExpression
  refine .seq fun primary => (selectors_shapes n primary).weaken (.refl _) ?_
  rw [Effect.fresh_andThen]
  exact .refl _

/-- Whatever an opening parenthesis starts is an operand: a lambda, a cast or a group. -/
theorem parenExpression_shapes (n : Nat) :
    Shapes x n [] .fresh (g.parenExpression n) Effect.operand := by
  unfold parenExpression
  refine .look fun kind => .cases (fun _ => castFrom_shapes n) fun _ => .observe fun s =>
    .cases (fun _ => .seq fun parameters => ?_) fun _ => postfixExpression_shapes n
  exact (lambdaFrom_shapes n parameters).weaken

instance : Yields x g.unaryBody Effect.operand := by
  unfold unaryBody
  refine .start fun n => .seq fun kind => .ask ?_ ?_
  · by_cases hkind : kind = .minus
    · rw [hkind]
      exact (negativeLiteral_shapes n).weaken
    · rw [if_pos ⟨rfl, hkind⟩, Effect.andThen_never]
      exact .vacuous
  · rw [if_neg fun h => Bool.false_ne_true h.1, Effect.andThen_fresh]
    split
    · rename_i operator hoperator
      have hleads : kind.leads = true := by
        cases kind <;> first | rfl | cases hoperator
      simp only [Effect.facing, hleads, if_true]
      exact .seq fun _ => .seqOperand fun operand hoperand =>
        .operandNode (.refl _) (Tree.isLoose_of_isOperand hoperand)
    · exact .forget (.cases (fun _ => parenExpression_shapes n) fun _ => postfixExpression_shapes n)

end Grammar

end JavaSyntax
