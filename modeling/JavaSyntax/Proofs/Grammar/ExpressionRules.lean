import JavaSyntax.Proofs.Grammar.ExpressionNodes
import JavaSyntax.Proofs.Grammar.TypeRules
import JavaSyntax.Proofs.Token.Twins

/-!
# The rules that expressions keep

Switches, primary expressions with their selectors, and operators build nodes that may stand
anywhere. Three things need a look at the tokens: a group of a switch without statements has the
closing brace behind it, a new array has at least one dimension, since what introduced it would
be no initializer, and the literal after a minus sign may be one that needs it.

Besides, it is known of expressions which operator they start with. Primary expressions start with
none, so an operand that starts with an operator is an operation with it: operators that stand
before operands are stacked directly on one another.
-/

namespace JavaSyntax

open Work JavaSyntax.Parser

variable {x : Tokenized}

/-- A cursor that has a token of a kind ahead. -/
def Cursor.Meets (x : Tokenized) (kind : TokenKind) (c : Cursor) : Prop :=
  ∃ ws, c.Faces x ws ∧ (wordAt ws 0).kind = kind

/-- What a parser comes to is known from the words ahead. -/
theorem Parser.Reaches.of_ok {α : Type} {p : Parser α} {s s' : ParserState} {a : α}
    {Q : α → Cursor → Prop} (h : Reaches p s Q) (hrun : p s = (.ok a, s')) : Q a s'.cursor := by
  rw [Reaches, hrun] at h
  exact h

namespace Grammar

variable {g : Grammar} [hg : g.Building x]

/-! ### Expressions that start with no operator -/

/-- A node that may stand anywhere and starts with no operator. -/
def Unsigned (a : Node .expression) : Prop := Fine a ∧ a.sign? = none

/-- A node that starts with no operator is shown to be one by a look at its tree. -/
theorem builds_unsigned {n start : Nat} {G : List (List Part)} {tree : Tree .expression}
    (h : Builds x n G (node start tree) Fine) (hsign : tree.sign? = none) :
    Builds x n G (node start tree) Unsigned where
  run hs hn hG hrun := by
    obtain ⟨hs', hn', ha⟩ := h.run hs hn hG hrun
    cases hrun
    exact ⟨hs', hn', ha, hsign⟩

/-! ### Labels and rules of a switch -/

instance : Makes x g.caseLabelTree Tree.Ready := by
  unfold caseLabelTree
  refine .free fun _ => .ask ?_ (.ask ?_ (.ask ?_ ?_))
  · exact .seq fun _ => .ready rfl .all trivial
  · exact .ready rfl .all trivial
  · exact .seq fun _ => .ready rfl .all trivial
  · exact .seq fun _ => .ready rfl .all trivial

instance : Makes x g.caseLabel Fine := by
  unfold caseLabel
  exact .start fun _ => .keep fun tree htree => .nodeOf (fun _ => htree) (by cases tree <;> rfl)

instance : Makes x g.caseGuard? fun found => ∀ guard ∈ found, Fine guard := by
  unfold caseGuard?
  exact .free fun _ => .ask (.keep fun guard hguard => .found fun _ => hguard) .notFound

instance : Makes x g.switchLabel Fine := by
  unfold switchLabel defaultLabel
  refine .free fun _ => .ask (.start fun _ => .seq fun _ => .chain (.node rfl .all trivial)
    fun label => .node rfl (fun q hq => ?_) rfl)
    (.start fun _ => .seq fun _ => .withLambdas (.seqWith fun labels hlabels => .seq fun _ => ?_))
  · change q ∈ label.parts ++ [] ++ [] at hq
    rwa [List.append_nil, List.append_nil] at hq
  · exact .node rfl .all (Tree.isEmpty_ofList_of_ne_nil hlabels.1)

instance : Makes x g.ruleBody Fine := by
  unfold ruleBody
  refine .free fun _ => .keep fun kind _ => ?_
  split
  · exact .seq fun _ => .fine .all
  · exact .seq fun _ => .fine .all
  · exact .seq fun _ => .seq fun _ => .fine .all

/-- A rule of a switch may stand anywhere, whatever its body is. -/
theorem builds_ruleFrom (n start : Nat) (label : Node .switchLabel) :
    Builds x n (pieces label) (g.ruleFrom start label) Fine := by
  unfold ruleFrom
  exact .seq fun _ => .seq fun _ => .node rfl .all trivial

instance : Makes x g.rule Fine := by
  unfold rule
  exact .start fun n => .seq fun label => .weaken (builds_ruleFrom n n label) .all

instance : Makes x g.labelWithColon Fine := by
  unfold labelWithColon
  exact .free fun _ => .seq fun _ => .seq fun _ => .fine .all

/-! ### Groups of a switch -/

/-- A group of a switch may stand anywhere, with statements or without. -/
theorem builds_groupFrom (n start : Nat) (label : Node .switchLabel) :
    Builds x n (pieces label) (g.groupFrom start label) Fine := by
  unfold groupFrom
  exact .seq fun _ => .seq fun _ => .node rfl .all rfl

/-- Whether the words ahead start with a label. -/
def opensLabel (ws : List Word) : Bool :=
  (wordAt ws 0).kind == .keyword .case ||
    (wordAt ws 0).kind == .keyword .default &&
      ((wordAt ws 1).kind == .colon || (wordAt ws 1).kind == .arrow)

/-- Whether a label comes next is seen without passing anything. -/
theorem reaches_atSwitchLabel {s : ParserState} {ws : List Word} (h : s.cursor.Faces x ws) :
    Reaches atSwitchLabel s fun b c => b = opensLabel ws ∧ c.Faces x ws := by
  unfold atSwitchLabel opensLabel
  refine .bind (reaches_check h (.keyword .case)) ?_
  rintro _ s₁ ⟨rfl, hfaces, -⟩
  cases (wordAt ws 0).kind == .keyword .case with
  | true => exact .pure ⟨rfl, hfaces⟩
  | false =>
    refine .bind (reaches_check hfaces (.keyword .default)) ?_
    rintro _ s₂ ⟨rfl, hfaces, -⟩
    cases (wordAt ws 0).kind == .keyword .default with
    | false => exact .pure ⟨rfl, hfaces⟩
    | true =>
      refine .bind (reaches_peekKind hfaces 1) ?_
      rintro _ s₃ ⟨rfl, hfaces, -⟩
      exact .pure ⟨rfl, hfaces⟩

/-- A group has another statement unless a label or the end of the switch comes next. -/
theorem reaches_atGroupStatement {s : ParserState} {ws : List Word} (h : s.cursor.Faces x ws) :
    Reaches atGroupStatement s fun b c =>
      b = (!opensLabel ws && !((wordAt ws 0).kind == .rightBrace)) ∧ c.Faces x ws := by
  unfold atGroupStatement
  refine .bind (reaches_atSwitchLabel h) ?_
  rintro _ s₁ ⟨rfl, hfaces⟩
  cases opensLabel ws with
  | true => exact .pure ⟨rfl, hfaces⟩
  | false =>
    refine .bind (reaches_check hfaces .rightBrace) ?_
    rintro _ s₂ ⟨rfl, hfaces, -⟩
    exact .pure ⟨rfl, hfaces⟩

/-- A group without statements has the closing brace behind it: there is neither a label, since
then it would have one label more, nor a statement. -/
theorem meets_of_groupFrom {s s' : ParserState} {start : Nat} {label : Node .switchLabel}
    {a : Node .switchGroup} (hs : s.cursor.On x) (hrun : g.groupFrom start label s = (.ok a, s'))
    (hempty : a.inner.hasStatements = false) : s'.cursor.Meets x .rightBrace := by
  unfold groupFrom at hrun
  obtain ⟨labels, s₁, hlabels, hrun⟩ := bind_eq_ok hrun
  obtain ⟨statements, s₂, hstatements, hrun⟩ := bind_eq_ok hrun
  cases hrun
  obtain rfl : statements = [] := by
    cases statements with
    | nil => rfl
    | cons => cases hempty
  obtain ⟨s₀, hs₀, hend, -⟩ := (rounds_of_manyWhile hlabels).exists_end hs
  obtain ⟨ws, hfaces⟩ := hs₀.exists_faces
  obtain ⟨hlabel, hfaces⟩ := (reaches_atSwitchLabel hfaces).of_ok hend
  have hrounds := rounds_of_manyWhile hstatements
  cases hrounds with
  | done hnone =>
    obtain ⟨hstatement, hfaces⟩ := (reaches_atGroupStatement hfaces).of_ok hnone
    rw [← hlabel] at hstatement
    exact ⟨ws, hfaces, by simpa using hstatement⟩

instance : Makes x g.group Fine := by
  unfold group
  exact .start fun n => .seq fun label => .weaken (builds_groupFrom n n label) .all

/-- A group that was read without statements has the closing brace behind it. -/
theorem meets_of_group {s s' : ParserState} {a : Node .switchGroup} (hs : s.cursor.On x)
    (hrun : g.group s = (.ok a, s')) (hempty : a.inner.hasStatements = false) :
    s'.cursor.Meets x .rightBrace := by
  unfold group at hrun
  obtain ⟨start, s₀, hstart, hrun⟩ := bind_eq_ok hrun
  cases hstart
  obtain ⟨label, s₁, hlabel, hrun⟩ := bind_eq_ok hrun
  obtain ⟨hs₁, -, -⟩ := Makes.run hs hlabel
  exact meets_of_groupFrom hs₁ hrun hempty

/-- Where a switch goes on, its closing brace does not come next. -/
theorem not_meets_of_goesOn {s s' : ParserState} {kind : TokenKind}
    (hrun : (return !(← check kind) : Parser Bool) s = (.ok true, s')) :
    ¬ s.cursor.Meets x kind := by
  rintro ⟨ws, hfaces, hkind⟩
  obtain ⟨found, s₁, hcheck, hpure⟩ := bind_eq_ok hrun
  obtain ⟨hfound, -⟩ := (reaches_check hfaces kind).of_ok hcheck
  rw [hkind, beq_self_eq_true] at hfound
  rw [hfound] at hpure
  cases hpure

/-- Only the last group can have no statements. -/
theorem hasStatements_of_rounds {s s' : ParserState} {first : Node .switchGroup}
    {others : List (Node .switchGroup)} (hs : s.cursor.On x)
    (hfirst : first.inner.hasStatements = false → s.cursor.Meets x .rightBrace)
    (h : Rounds (return !(← check .rightBrace)) g.group s others s') :
    ∀ a ∈ (first :: others).dropLast, a.inner.hasStatements = true := by
  induction h generalizing first with
  | done => exact nofun
  | @more s s₁ s₂ s' a as hgoesOn hitem hrest ih =>
    have hcondition : Makes x (return !(← check .rightBrace) : Parser Bool) fun _ => True :=
      .free fun _ => .keep fun _ _ => .pure fun _ => trivial
    obtain ⟨hs₁, -, -⟩ := hcondition.run hs hgoesOn
    obtain ⟨hs₂, -, -⟩ := Makes.run hs₁ hitem
    have hothers := ih hs₂ (meets_of_group hs₁ hitem)
    intro b hb
    rw [List.dropLast_cons_of_ne_nil (List.cons_ne_nil a as)] at hb
    rcases List.mem_cons.mp hb with rfl | hb
    · refine Bool.not_eq_false _ ▸ fun hempty => ?_
      exact not_meets_of_goesOn hgoesOn (hfirst hempty)
    · exact hothers b hb

/-- Among the groups of a switch only the last one can be without statements. -/
theorem builds_groups (n start : Nat) (label : Node .switchLabel) :
    Builds x n (pieces label) (g.groupFrom start label >>= fun first =>
      manyUntil .rightBrace g.group >>= fun others =>
        pure (Tree.groups (.ofList (first :: others))))
      fun body => Fine body ∧ body.WellFormed where
  run {s s' body} hs hn hG hrun := by
    have hfrom := builds_groupFrom (x := x) (g := g) n start label
    have hfine : Builds x n (pieces label) (g.groupFrom start label >>= fun first =>
        manyUntil .rightBrace g.group >>= fun others =>
          pure (Tree.groups (.ofList (first :: others)))) Fine :=
      .chain hfrom fun _ => .seq fun _ => .fine .all
    obtain ⟨hs', hn', hbody⟩ := hfine.run hs hn hG hrun
    obtain ⟨first, s₁, hfirst, hrun⟩ := bind_eq_ok hrun
    obtain ⟨others, s₂, hothers, hrun⟩ := bind_eq_ok hrun
    cases hrun
    obtain ⟨hs₁, -, -⟩ := hfrom.run hs hn hG hfirst
    refine ⟨hs', hn', hbody, ?_⟩
    intro a ha
    rw [Tree.toList_ofList] at ha
    have hgroup := meets_of_groupFrom hs hfirst
    exact hasStatements_of_rounds hs₁ hgroup (rounds_of_manyWhile hothers) a ha

instance : Makes x g.switchCases fun body => Fine body ∧ body.WellFormed := by
  unfold switchCases
  refine .free fun _ => .ask (.pure fun _ => ⟨nofun, nofun⟩)
    (.start fun n => .seq fun label => .ask ?_ ?_)
  · exact .chain (.weaken (builds_ruleFrom n n label) .all) fun _ => .seq fun _ =>
      .pure fun hG => ⟨hG, rfl⟩
  · exact .seq fun _ => .weaken (builds_groups n n label) .all

instance : Makes x g.switchParts fun parts => Fine parts ∧ parts.2.WellFormed := by
  unfold switchParts
  exact .free fun _ => .seq fun _ => .seq fun _ => .seq fun _ => .seq fun _ => .seq fun _ =>
    .seqWith fun body hbody => .seq fun _ => .pure fun hG => ⟨hG, hbody.2⟩

/-! ### Lambdas and references -/

instance : Makes x g.lambdaBody Fine := by
  unfold lambdaBody
  exact .free fun _ => .ask (.seq fun _ => .fine .all) (.seq fun _ => .fine .all)

/-- A lambda starts with its parameters, so with no operator. -/
theorem builds_lambdaFrom (n start : Nat) {parameters : Tree .lambdaParameters}
    (hparameters : parameters.WellFormed) :
    Builds x n (pieces parameters) (g.lambdaFrom start parameters) Unsigned := by
  unfold lambdaFrom
  exact .seq fun _ => .seq fun _ => builds_unsigned (.node rfl .all hparameters) rfl

/-- A tree with type arguments among its nodes, which alone may be wildcards. -/
theorem ready_of_arguments {f : Form} {tree : Tree f} {types : List (Node .type)}
    {before after : List Part} (harguments : Arguments types)
    (hplain : ∀ q ∈ before ++ after, q.Plain)
    (hparts : tree.parts = before ++ (Tree.ofList types).parts ++ after)
    (hrest : tree.withoutTypeArguments.parts = before ++ [] ++ after)
    (hwellFormed : tree.WellFormed) (hliteral : tree.literal? = none)
    (hname : tree.declaredType? = none) : tree.Ready where
  toPlaced := by
    rw [List.append_nil] at hrest
    refine .of_arguments harguments.of_mem_parts (hrest ▸ hplain) fun q hq => ?_
    rw [hparts, List.append_assoc, List.mem_append, List.mem_append] at hq
    rw [hrest, List.mem_append]
    rcases hq with hq | hq | hq
    · exact .inl (.inl hq)
    · exact .inr hq
    · exact .inl (.inr hq)
  wellFormed := hwellFormed
  genuine l hl := by
    rw [hliteral] at hl
    cases hl
  unrestricted name h := by
    rw [hname] at h
    cases h

/-- A reference to a method starts as its target does. -/
theorem builds_methodReference (n start : Nat) {target : Tree .referenceTarget}
    (htarget : target.sign? = none) :
    Builds x n (pieces target) (g.methodReference start target) Unsigned := by
  unfold methodReference
  refine .seq fun _ => .keep fun types htypes => .seq fun name =>
    builds_unsigned (.nodeOf (fun hG => ?_) rfl) htarget
  rw [← List.append_nil (Part.join _)] at hG
  exact ready_of_arguments htypes hG (List.append_nil _).symm (List.append_nil _).symm trivial rfl
    rfl

/-- A class literal or a reference that starts with a type starts with no operator. -/
theorem builds_typePrimaryFrom (n start : Nat) (type : Node .type) :
    Builds x n (pieces type) (g.typePrimaryFrom start type) Unsigned := by
  unfold typePrimaryFrom
  have hreference : Builds x n (pieces (Tree.typeTarget type))
      (g.methodReference start (.typeTarget type)) Unsigned := builds_methodReference n start rfl
  refine .ask (.weaken hreference .all) ?_
  exact .seq fun _ => .seq fun _ => builds_unsigned (.node rfl .all trivial) rfl

/-! ### Creations -/

instance (sized : Bool) :
    Makes x (g.newDimension? sized) fun found => ∀ dimension ∈ found, Fine dimension := by
  unfold newDimension?
  refine .start fun _ => .seq fun annotations => .askNot (.cases (fun _ => ?_) fun _ => .refuse)
    (.keep fun kind _ => .cases (fun _ => ?_) fun _ => .cases (fun _ => ?_) fun _ => .goBack ?_)
  · exact .notFound
  · refine .seq fun _ => .seq fun _ => .found fun hG q hq => ?_
    change q ∈ (Tree.ofList annotations).parts ++ [] at hq
    rw [List.append_nil] at hq
    exact hG q hq
  · exact .seq fun _ => .seq fun _ => .seq fun _ => .found id
  · exact .notFound

/-- What was read of a new array: before each dimension are annotations, if only empty ones. -/
def NewDimensions.Balanced (d : NewDimensions) : Prop :=
  Fine d ∧ d.annotations.length = d.sizes.length + d.extra

/-- One more dimension keeps annotations and dimensions in step. -/
theorem NewDimensions.Balanced.add {d : NewDimensions} {dimension : NewDimension}
    (h : d.Balanced) (hdimension : Fine dimension) : (d.add dimension).Balanced := by
  refine ⟨?_, ?_⟩
  · intro q hq
    have hall := (d.perm_add dimension).mem_iff.mpr hq
    rw [Part.join_append, List.mem_append] at hall
    exact hall.elim (h.1 q) (hdimension q)
  · have hlength := h.2
    obtain ⟨annotations, _ | size⟩ := dimension <;>
      simp only [NewDimensions.add, List.length_cons] <;> omega

instance : Makes x (loop g.newDimension {}) NewDimensions.Balanced := by
  refine .free fun _ => .loop NewDimensions.Balanced ⟨nofun, rfl⟩ fun d hd => ?_
  rw [newDimension_eq]
  refine .keep fun found hfound => .pure fun _ => ?_
  cases found with
  | none => exact hd
  | some dimension => exact hd.add (hfound dimension rfl)

/-- To look for an annotation passes nothing. -/
theorem atAnnotation_reaches {s : ParserState} {ws : List Word} (h : s.cursor.Faces x ws) :
    Reaches atAnnotation s fun _ c => c.Faces x ws := by
  unfold atAnnotation
  refine .bind (reaches_check h .at) ?_
  rintro _ s₁ ⟨rfl, hfaces, -⟩
  cases (wordAt ws 0).kind == .at with
  | false => exact .pure hfaces
  | true =>
    refine .bind (reaches_peekKind hfaces 1) ?_
    rintro _ s₂ ⟨-, hfaces, -⟩
    exact .pure hfaces

/-- If there is no dimension where the first one is expected, there is no bracket. -/
theorem faces_of_newDimension? {g : Grammar} {s s' : ParserState} {ws : List Word}
    (h : s.cursor.Faces x ws) (hrun : g.newDimension? true s = (.ok none, s')) :
    s'.cursor.Faces x ws ∧ (wordAt ws 0).kind ≠ .leftBracket := by
  unfold newDimension? at hrun
  obtain ⟨start, s₀, hstart, hrun⟩ := bind_eq_ok hrun
  cases hstart
  obtain ⟨annotations, s₁, hannotations, hrun⟩ := bind_eq_ok hrun
  obtain ⟨found, s₂, hfound, hrun⟩ := bind_eq_ok hrun
  cases found with
  | true =>
    -- A bracket opens a dimension, with or without a size.
    obtain ⟨kind, s₃, -, hrun⟩ := bind_eq_ok hrun
    split at hrun
    · obtain ⟨_, _, -, hrun⟩ := bind_eq_ok hrun
      obtain ⟨_, _, -, hrun⟩ := bind_eq_ok hrun
      cases hrun
    · obtain ⟨_, _, -, hrun⟩ := bind_eq_ok hrun
      obtain ⟨_, _, -, hrun⟩ := bind_eq_ok hrun
      obtain ⟨_, _, -, hrun⟩ := bind_eq_ok hrun
      cases hrun
  | false =>
    cases annotations with
    | cons => exact absurd (congrArg Prod.fst hrun) (unexpected_ne_ok _ _ _)
    | nil =>
      cases hrun
      cases rounds_of_manyWhile hannotations with
      | done hnone =>
        have hfaces := (atAnnotation_reaches h).of_ok hnone
        obtain ⟨hkind, hfaces, -⟩ := (reaches_check hfaces .leftBracket).of_ok hfound
        exact ⟨hfaces, fun heq => by rw [heq] at hkind; cases hkind⟩

/-- Where a dimension was read, there is a list of annotations for it. -/
theorem annotations_add_ne_nil (d : NewDimensions) (dimension : NewDimension) :
    (d.add dimension).annotations ≠ [] := by
  obtain ⟨annotations, _ | size⟩ := dimension <;> exact List.cons_ne_nil _ _

/-- A new array has dimensions, or the parse stands where it was and there is no bracket. -/
theorem faces_of_newDimensions {g : Grammar} {s s' : ParserState} {ws : List Word}
    {d : NewDimensions} (h : s.cursor.Faces x ws) (hrun : loop g.newDimension {} s = (.ok d, s')) :
    d.annotations ≠ [] ∨
      d.sizes = [] ∧ s'.cursor.Faces x ws ∧ (wordAt ws 0).kind ≠ .leftBracket := by
  have hmore (bound : Nat) : ∀ (d₀ : NewDimensions) (s : ParserState), d₀.annotations ≠ [] →
      loopFor g.newDimension bound d₀ s = (.ok d, s') → d.annotations ≠ [] := by
    induction bound with
    | zero => exact fun _ _ _ h => absurd (congrArg Prod.fst h) (unexpected_ne_ok _ _ _)
    | succ bound ih =>
      intro d₀ s hne hrun
      obtain ⟨outcome, s₁, hstep, hrest⟩ := bind_eq_ok hrun
      rw [newDimension_eq] at hstep
      obtain ⟨found, s₂, -, hstep⟩ := bind_eq_ok hstep
      cases found with
      | none =>
        cases hstep
        cases hrest
        exact hne
      | some dimension =>
        cases hstep
        exact ih _ _ (annotations_add_ne_nil _ _) hrest
  obtain ⟨outcome, s₁, hstep, hrest⟩ := bind_eq_ok
    (show (g.newDimension {} >>= _) s = _ from hrun)
  rw [newDimension_eq] at hstep
  obtain ⟨found, s₂, hfound, hstep⟩ := bind_eq_ok hstep
  cases found with
  | none =>
    cases hstep
    cases hrest
    exact .inr ⟨rfl, faces_of_newDimension? h hfound⟩
  | some dimension =>
    cases hstep
    exact .inl (hmore _ _ _ (annotations_add_ne_nil _ _) hrest)

/-- A new array with a dimension may stand anywhere, if it has either sizes or an initializer. -/
theorem NewDimensions.Balanced.ready {d : NewDimensions} (h : d.Balanced) (hne : d.annotations ≠ [])
    {element : Node .type} {initializer : Option (Node .expression)} (helement : Fine element)
    (hinitializer : Fine initializer) (hpresent : initializer.isSome = d.sizes.isEmpty) :
    (d.tree element initializer).Ready := by
  refine .of_isOrdinary rfl ?_ ?_
  · intro q hq
    have hall := (d.perm_tree element initializer).mem_iff.mpr hq
    simp only [Part.join_append, List.mem_append] at hall
    exact hall.elim (fun hall => hall.elim (helement q) (h.1 q)) (hinitializer q)
  · have hlength := h.2
    refine ⟨?_, ?_, ?_⟩
    · simpa using hlength
    · simpa [Nat.one_le_iff_ne_zero] using hne
    · simpa using hpresent

/-- A new array is built where a bracket or an annotation comes next. If that were no dimension,
it would have to be an initializer, but it does not start like one. -/
theorem builds_arrayCreation {s s' : ParserState} {start : Nat} {element a} {ws : List Word}
    (h : s.cursor.Faces x ws)
    (hkind : (wordAt ws 0).kind = .leftBracket ∨ (wordAt ws 0).kind = .at) (helement : Fine element)
    (hrun : g.arrayCreation start element s = (.ok a, s')) :
    s'.cursor.On x ∧ s.cursor.position ≤ s'.cursor.position ∧ Unsigned a := by
  unfold arrayCreation at hrun
  simp only [map_eq_pure_bind, bind_assoc, pure_bind] at hrun
  obtain ⟨d, s₁, hloop, hrun⟩ := bind_eq_ok hrun
  obtain ⟨hs₁, hle₁, hd⟩ := Makes.run h.on hloop
  have hnode (initializer : Option (Node .expression)) (hne : d.annotations ≠ [])
      (hinitializer : Fine initializer) (hpresent : initializer.isSome = d.sizes.isEmpty) :
      Builds x s.cursor.position [] (node start (d.tree element initializer)) Unsigned :=
    builds_unsigned (.nodeOf (fun _ => hd.ready hne helement hinitializer hpresent) rfl) rfl
  cases hsizes : d.sizes.isEmpty with
  | false =>
    have hpos := List.length_pos_iff.mpr (List.isEmpty_eq_false_iff.mp hsizes)
    have hlength := hd.2
    have hne : d.annotations ≠ [] := List.length_pos_iff.mp (by omega)
    rw [hsizes] at hrun
    exact (hnode none hne nofun hsizes.symm).run hs₁ hle₁ nofun hrun
  | true =>
    rw [hsizes] at hrun
    obtain ⟨initializer, s₂, hinitializer, hrun⟩ := bind_eq_ok hrun
    obtain ⟨hs₂, hle₂, hfine⟩ := Makes.run hs₁ hinitializer
    have hne : d.annotations ≠ [] := by
      rcases faces_of_newDimensions h hloop with hne | ⟨-, hfaces, hbracket⟩
      · exact hne
      · have hbrace := hg.kind_eq hfaces hinitializer
        rcases hkind with hkind | hkind
        · exact absurd hkind hbracket
        · rw [hkind] at hbrace
          cases hbrace
    exact (hnode (some initializer) hne hfine hsizes.symm).run hs₂
      (Nat.le_trans hle₁ hle₂) nofun hrun

/-- A creation starts with the outer object, if there is one. -/
theorem sign?_ofOption {outer : Option (Node .expression)} (h : ∀ a ∈ outer, a.sign? = none) :
    (Tree.ofOption outer).sign? = none := by
  cases outer with
  | none => rfl
  | some a => exact h a rfl

/-- A new object starts with `new` or with the object outside of it. -/
theorem builds_objectCreation (n start : Nat) {outer : Option (Node .expression)}
    (houter : ∀ a ∈ outer, a.sign? = none) {types : List (Node .type)} (htypes : Arguments types)
    (type : Node .type) :
    Builds x n (pieces outer ++ pieces type) (g.objectCreation start outer types type)
      Unsigned := by
  unfold objectCreation
  refine .seq fun arguments => .seq fun body =>
    builds_unsigned (.nodeOf (fun hG => ?_) rfl) (sign?_ofOption houter)
  have hsplit (l : List Part) : (Tree.ofOption outer).parts ++ l ++ type.parts ++
      (Tree.ofList arguments).parts ++ (Tree.ofOption (body.map .ofList)).parts =
      (Tree.ofOption outer).parts ++ l ++ (type.parts ++ (Tree.ofList arguments).parts ++
        (Tree.ofOption (body.map .ofList)).parts) := by
    simp only [List.append_assoc]
  refine ready_of_arguments htypes (fun q hq => hG q ?_) (hsplit _) (hsplit []) trivial rfl rfl
  rw [← List.append_nil (Tree.ofOption outer).parts, ← hsplit, List.append_nil] at hq
  exact hq

/-- A dimension starts with a bracket, or with an annotation. -/
theorem reaches_atDimension {s : ParserState} {ws : List Word} (h : s.cursor.Faces x ws) :
    Reaches atDimension s fun b c =>
      b = ((wordAt ws 0).kind == .leftBracket || (wordAt ws 0).kind == .at) ∧ c.Faces x ws := by
  unfold atDimension
  refine .bind (reaches_currentKind h) ?_
  rintro _ s₁ ⟨rfl, hfaces, -⟩
  exact .pure ⟨rfl, hfaces⟩

/-- A new object or array starts with `new` or with the object outside of it. -/
theorem builds_creation (n start : Nat) {outer : Option (Node .expression)}
    (houter : ∀ a ∈ outer, a.sign? = none) :
    Builds x n (pieces outer) (g.creation start outer) Unsigned := by
  unfold creation
  refine .seq fun _ => .keep fun types htypes => .seqWith fun type htype => ?_
  have hobject : Builds x n (pieces outer ++ pieces type)
      (g.objectCreation start outer types type) Unsigned :=
    builds_objectCreation n start houter htypes type
  refine .cases (fun _ => ⟨fun {s s' a} hs hn hG hrun => ?_⟩) fun _ => hobject.weaken .all
  obtain ⟨found, s₁, hfound, hrest⟩ := bind_eq_ok hrun
  obtain ⟨hs₁, hle₁, -⟩ := Makes.run hs hfound
  cases found with
  | false => exact (hobject.weaken .all).run hs₁ (Nat.le_trans hn hle₁) hG hrest
  | true =>
    obtain ⟨ws, hfaces⟩ := hs.exists_faces
    obtain ⟨hkind, hfaces⟩ := (reaches_atDimension hfaces).of_ok hfound
    obtain ⟨hs', hle, ha⟩ := builds_arrayCreation hfaces (by simpa using hkind.symm) htype hrest
    exact ⟨hs', Nat.le_trans hn (Nat.le_trans hle₁ hle), ha⟩

/-! ### Primaries -/

/-- What starts with a name starts with no operator. -/
theorem builds_namePrimary (n start : Nat) : Builds x n [] (g.namePrimary start) Unsigned := by
  unfold namePrimary
  refine .seq fun next => .observe fun s => .cases (fun _ => .seq fun name => ?_) fun _ =>
    .ask (.seq fun type => ?_) (.seq fun name => .ask (.seq fun arguments => ?_) ?_)
  · have hparameters : (Tree.implicitParameters [name] false).WellFormed := fun _ => rfl
    exact .weaken (builds_lambdaFrom n start hparameters) .all
  · exact .weaken (builds_typePrimaryFrom n start type) .all
  · exact builds_unsigned (.node rfl .all trivial) rfl
  · exact builds_unsigned (.node rfl .all trivial) rfl

/-- What starts with a parenthesis starts with no operator. -/
theorem builds_parenthesized (n start : Nat) :
    Builds x n [] (g.parenthesized start) Unsigned := by
  unfold parenthesized
  exact .seq fun _ => .seq fun _ => .seq fun _ => builds_unsigned (.node rfl .all trivial) rfl

/-- What starts with a keyword starts with no operator. -/
theorem builds_keywordPrimary (n start : Nat) (keyword : Keyword) :
    Builds x n [] (g.keywordPrimary start keyword) Unsigned := by
  unfold keywordPrimary
  split
  · exact .seq fun _ => builds_unsigned (.node rfl .all trivial) rfl
  · exact .seq fun _ => builds_unsigned (.node rfl .all trivial) rfl
  · have hcreation : Builds x n (pieces (none : Option (Node .expression)))
        (g.creation start none) Unsigned :=
      builds_creation n start fun a ha => absurd ha (Option.not_mem_none a)
    exact .weaken hcreation .all
  · refine .seqWith ?_
    rintro ⟨selector, body⟩ hparts
    exact builds_unsigned (.node rfl .all hparts.2) rfl
  · exact .cases (fun _ => .seq fun type => .weaken (builds_typePrimaryFrom n start type) .all)
      fun _ => .refuse

/-- A literal that needs no minus sign may stand anywhere. -/
theorem ready_literal {l : LiteralText} (h : l.Genuine) : (Tree.literal l).Ready where
  arguments := nofun
  exposed := nofun
  wellFormed := trivial
  genuine := by
    rintro _ ⟨⟩
    exact h
  unrestricted := by rintro _ ⟨⟩

instance : Makes x g.primary Unsigned := by
  unfold primary
  refine .start fun n => .keep fun kind _ => ?_
  split
  · exact builds_namePrimary n n
  · exact builds_parenthesized n n
  · exact builds_keywordPrimary n n _
  · refine .cases (fun _ => .keep fun l hl =>
      builds_unsigned (.nodeOf (fun _ => ready_literal hl.1) ?_) rfl) fun _ => .refuse
    rw [Tree.isConfined, show (Tree.literal l).needsMinus = _ from hl.2 rfl]
    rfl

/-! ### Selectors -/

/-- A name with dots has a first part. -/
theorem qualifiedName?_ne_nil {f : Form} {t : Tree f} {names : List String}
    (h : t.qualifiedName? = some names) : names ≠ [] := by
  induction t generalizing names with
  | simpleName name =>
    cases h
    exact List.cons_ne_nil _ _
  | fieldAccess target name =>
    obtain ⟨before, -, rfl⟩ := Option.map_eq_some_iff.mp h
    exact List.concat_ne_nil _ _
  | located t span source ih => exact ih h
  | _ => cases h

/-- A type that is made of a name has no arguments that could be left out. -/
theorem withoutTypeArguments_plainClassType (names : List String) :
    (plainClassType names).withoutTypeArguments = plainClassType names := by
  refine congrArg Tree.classType ?_
  induction names with
  | nil => rfl
  | cons name names ih => exact congrArg (Tree.cons _) ih

/-- The type of a class literal is made of names, the last of which is not checked. This is the
only place for it. -/
theorem ready_plainClassType {names : List String} (hnames : names ≠ []) :
    (plainClassType names).Ready := by
  refine .of_plain ?_ ?_ rfl (by rintro _ ⟨⟩) (withoutTypeArguments_plainClassType names)
  · rw [parts_plainClassType]
    exact nofun
  · exact Tree.isEmpty_ofList_of_ne_nil (by simpa using hnames)

/-- A class literal starts with a name, and no restriction is asked of that name. -/
theorem builds_classLiteral (n start : Nat) (target : Node .expression) :
    Builds x n (pieces target) (classLiteral start target) Unsigned := by
  unfold classLiteral
  cases hnames : target.qualifiedName? with
  | none => exact .refuse
  | some names =>
    have hready := ready_plainClassType (qualifiedName?_ne_nil hnames)
    refine .seq fun _ => builds_unsigned (.nodeRegular
      ⟨trivial, by rintro _ ⟨⟩, by rintro _ ⟨⟩, ?_, ?_, ?_⟩ ?_ rfl) rfl
    all_goals refine Tree.forall_mem_parts_node ?_
    · exact nofun
    · rfl
    · exact fun _ => rfl
    · exact hready.kept

/-- A member starts as the expression before the dot does. -/
theorem builds_dotSelector (n start : Nat) {target : Node .expression}
    (htarget : target.sign? = none) :
    Builds x n (pieces target) (g.dotSelector start target) Unsigned := by
  unfold dotSelector
  refine .keep fun kind _ => ?_
  split
  · refine .keep fun types htypes => .seq fun name => .seq fun arguments =>
      builds_unsigned (.nodeOf (fun hG => ?_) rfl) htarget
    exact ready_of_arguments htypes hG rfl rfl trivial rfl rfl
  · exact .seq fun _ => builds_unsigned (.node rfl .all trivial) htarget
  · exact .seq fun _ => builds_unsigned (.node rfl .all trivial) htarget
  · have hcreation : Builds x n (pieces (some target)) (g.creation start (some target)) Unsigned :=
      builds_creation n start (by simpa using htarget)
    exact .weaken hcreation .all
  · exact .weaken (builds_classLiteral n start target) .all
  · refine .seq fun _ => .ask
      (.seq fun arguments => builds_unsigned (.node rfl (fun q hq => ?_) trivial) htarget)
      (builds_unsigned (.node rfl .all trivial) htarget)
    change q ∈ target.parts ++ [] ++ (Tree.ofList arguments).parts at hq
    rw [List.append_nil] at hq
    exact hq

/-- An expression with selectors starts as it does without them. -/
theorem builds_selectors (n start : Nat) {target : Node .expression} (htarget : Unsigned target) :
    Builds x n [] (g.selectors start target) Unsigned := by
  unfold selectors
  refine .loop Unsigned htarget fun target htarget => .forget (.add htarget.1 ?_)
  unfold selector
  refine .keep fun kind _ => ?_
  have hagain {p : Parser (Node .expression)} (h : Builds x n (pieces target) p Unsigned) :
      Builds x n (pieces target) (p >>= fun a => pure (.again a))
        (Step.Keeps Unsigned Unsigned) := .bind h fun a ha => .pure fun _ => ha
  split
  · have hselector : Builds x n (pieces target) (g.dotSelector start target) Unsigned :=
      builds_dotSelector n start htarget.2
    exact .seq fun _ => .weaken (hagain hselector) .all
  · exact .seq fun _ => .seq fun _ => .seq fun _ =>
      .bind (builds_unsigned (.node rfl .all trivial) htarget.2) fun a ha => .pure fun _ => ha
  · have hreference : Builds x n (pieces (Tree.expressionTarget target))
        (g.methodReference start (.expressionTarget target)) Unsigned :=
      builds_methodReference n start htarget.2
    exact hagain hreference
  · split
    · exact .pure fun _ => htarget
    · rename_i operator hoperator
      have hbehind := UnaryOperator.isPostfix_of_afterOperand? hoperator
      have hsign : (Tree.unary operator target).sign? = none := by
        rw [Tree.sign?, if_pos hbehind, htarget.2]
      refine .seq fun _ => .bind (builds_unsigned (.node rfl .all fun hahead => ?_) hsign)
        fun a ha => .pure fun _ => ha
      rw [hbehind] at hahead
      cases hahead

/-! ### Before an operand -/

/-- A cast starts with a parenthesis. -/
theorem builds_castFrom (n start : Nat) : Builds x n [] (g.castFrom start) Unsigned := by
  unfold castFrom
  exact .seq fun _ => .seq fun _ => .seq fun _ => .seq fun _ =>
    builds_unsigned (.node rfl .all trivial) rfl

instance : Makes x implicitParameters fun parameters =>
    Fine parameters ∧ parameters.WellFormed := by
  unfold implicitParameters
  simp only [pure_bind]
  have hparentheses (names : List String) :
      Fine (Tree.implicitParameters names true) ∧ (Tree.implicitParameters names true).WellFormed :=
    ⟨List.forall_mem_nil _, by rintro ⟨⟩⟩
  exact .free fun _ => .seq fun _ => .ask (.seq fun _ => .pure fun _ => hparentheses _)
    (.seq fun _ => .seq fun _ => .pure fun _ => hparentheses _)

instance (kind : ParenKind) : Makes x (g.lambdaParameters kind) fun parameters =>
    Fine parameters ∧ parameters.WellFormed := by
  unfold lambdaParameters
  exact .free fun _ => .cases (fun _ => .keep fun parameters hparameters =>
    .pure fun _ => hparameters) fun _ => .of_makes

/-- What starts with no operator starts with none that could be another node's. -/
theorem Unsigned.prefixed {a : Node .expression} (h : Unsigned a) : Prefixed a := by
  refine ⟨h.1, fun hsign => ?_⟩
  rw [h.2] at hsign
  cases hsign

/-- An operator before an operand is the first thing of its node. -/
theorem builds_prefixed {n start : Nat} {G : List (List Part)} {operator : UnaryOperator}
    {operand : Node .expression} (h : Builds x n G (node start (.unary operator operand)) Fine)
    (hahead : operator.isPostfix = false) :
    Builds x n G (node start (.unary operator operand)) Prefixed where
  run hs hn hG hrun := by
    obtain ⟨hs', hn', ha⟩ := h.run hs hn hG hrun
    cases hrun
    refine ⟨hs', hn', ha, fun _ => ?_⟩
    change (!operator.isPostfix) = true
    rw [hahead]
    rfl

/-- A minus sign and its operand, which may be a literal that needs it. -/
theorem builds_negativeLiteral (n start : Nat) :
    Builds x n [] (negativeLiteral start) Prefixed := by
  unfold negativeLiteral
  refine .seq fun _ => .start fun literalStart => .keep fun l hl =>
    .bind (.nodeKept fun _ => ready_literal hl.1) ?_
  rintro operand ⟨hkept, hinner⟩
  have hsign : operand.sign? = none := by
    rw [Tree.sign?_eq_inner, hinner]
    rfl
  refine builds_prefixed (.nodeRegular
    ⟨fun _ h => ?_, by rintro _ ⟨⟩, by rintro _ ⟨⟩, ?_, ?_, ?_⟩ ?_ rfl) rfl
  · rw [hsign] at h
    cases h
  all_goals refine Tree.forall_mem_parts_node ?_
  · exact fun _ => rfl
  · change operand.inner.isWildcard = false
    rw [hinner]
    rfl
  · change operand.inner.isRestricted = true → _
    rw [hinner]
    exact nofun
  · exact hkept

/-- An operand with operators behind it starts as the operand does, so with no operator. -/
theorem builds_postfixExpression (n start : Nat) :
    Builds x n [] (g.postfixExpression start) Unsigned := by
  unfold postfixExpression
  exact .keep fun primary hprimary => builds_selectors n start hprimary

/-- Whatever an opening parenthesis starts, it starts with no operator. -/
theorem builds_parenExpression (n start : Nat) :
    Builds x n [] (g.parenExpression start) Unsigned := by
  unfold parenExpression
  refine .seq fun kind => .cases (fun _ => builds_castFrom n start) fun _ => .observe fun s =>
    .cases (fun _ => .seqWith fun parameters hparameters => ?_)
      fun _ => builds_postfixExpression n start
  exact .weaken (builds_lambdaFrom n start hparameters.2) .all

instance : Makes x g.unaryBody Prefixed := by
  unfold unaryBody
  refine .start fun n => .keep fun kind _ => .ask (builds_negativeLiteral n n) ?_
  split
  · rename_i operator hoperator
    exact .seq fun _ => .seqWith fun operand hoperand => builds_prefixed
      (.node rfl .all fun _ => hoperand.2) (UnaryOperator.isPostfix_of_beforeOperand? hoperator)
  · exact .cases (fun _ => .mono (builds_parenExpression n n) fun _ => Unsigned.prefixed)
      fun _ => .mono (builds_postfixExpression n n) fun _ => Unsigned.prefixed

/-! ### Between operands -/

instance : Makes x g.instanceOfTarget Fine := by
  unfold instanceOfTarget
  exact .free fun _ => .ask (.seq fun _ => .fine .all) (.seq fun _ => .fine .all)

/-- An operation, or a test with `instanceof`, may stand anywhere if its operands may. -/
theorem builds_binaryStep {operand : Nat → Parser (Node .expression)}
    (hoperand : ∀ least, Makes x (operand least) Fine) (n least start : Nat)
    {left : Node .expression} (hleft : Fine left) :
    Builds x n [] (g.binaryStep operand least start left) (Step.Keeps Fine Fine) := by
  unfold binaryStep
  refine .forget (.add hleft ?_)
  refine .seq fun kind => .cases (fun _ => .cases (fun _ => .pure fun _ => hleft) fun _ =>
    .seq fun _ => .seq fun target => .bind (.node rfl .all trivial) fun a ha =>
      .pure fun _ => ha) fun _ => ?_
  cases BinaryOperator.ofToken? kind with
  | none => exact .pure fun _ => hleft
  | some operator =>
    have := hoperand (operator.precedence + 1)
    exact .cases (fun _ => .pure fun _ => hleft) fun _ => .seq fun _ => .seq fun right =>
      .bind (.node rfl .all trivial) fun a ha => .pure fun _ => ha

/-- Operations may stand anywhere at every level of precedence. -/
theorem makes_binary (levels least : Nat) : Makes x (g.binary levels least) Fine := by
  induction levels generalizing least with
  | zero =>
    rw [binary]
    exact .fine (Q := Prefixed) inferInstance
  | succ levels ih =>
    rw [binary]
    exact .start fun n => .keep fun first hfirst => .loop Fine hfirst.1 fun left hleft =>
      builds_binaryStep (g := g) ih n least n hleft

instance : Makes x g.anyBinary Fine := makes_binary 10 1

instance : Makes x g.conditionalBody Fine := by
  unfold conditionalBody
  exact .start fun _ => .seq fun condition => .ask
    (.seq fun _ => .seq fun _ => .seq fun _ => .node rfl .all trivial) (.fine .all)

instance : Makes x g.expressionBody Fine := by
  unfold expressionBody
  refine .start fun _ => .seq fun target => .keep fun kind _ => ?_
  split
  · exact .fine .all
  · exact .seq fun _ => .seq fun _ => .node rfl .all trivial

end Grammar

end JavaSyntax
