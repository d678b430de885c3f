import JavaSyntax.Proofs.Grammar.DeclarationNodes
import JavaSyntax.Proofs.Grammar.StatementRules

/-!
# The rules that declarations keep

Declarations of types, their members and whole compilation units build nodes that may stand
anywhere, and so does every level of the grammar. The innermost level does because it builds
nothing.
-/

namespace JavaSyntax

open Work JavaSyntax.Parser

variable {x : Tokenized}

namespace Grammar

variable {g : Grammar} [hg : g.Building x]

/-! ### Headers -/

instance (keyword : Keyword) : Makes x (g.typesAfter keyword) Fine := by
  unfold typesAfter
  exact .free fun _ => .ask .of_makes (.fine .all)

instance : Makes x g.permitted Fine := by
  unfold permitted
  exact .free fun _ => .ask .of_makes (.fine .all)

section AfterModifiers

variable (n : Nat) (modifiers : List (Node .modifier))

/-- The declaration of a class may stand anywhere. -/
theorem builds_classDeclaration :
    Builds x n (pieces modifiers) (g.classDeclaration modifiers) Tree.Ready := by
  unfold classDeclaration
  refine .seq fun _ => .seqWith fun name hname => .seq fun _ => .seq fun _ => .seq fun _ =>
    .seq fun _ => .seq fun _ => .declares rfl hname .all trivial

/-- The declaration of an interface may stand anywhere. -/
theorem builds_interfaceDeclaration :
    Builds x n (pieces modifiers) (g.interfaceDeclaration modifiers) Tree.Ready := by
  unfold interfaceDeclaration
  refine .seq fun _ => .seqWith fun name hname => .seq fun _ => .seq fun _ => .seq fun _ =>
    .seq fun _ => .declares rfl hname .all trivial

/-- The declaration of an annotation type may stand anywhere. -/
theorem builds_annotationTypeDeclaration :
    Builds x n (pieces modifiers) (g.annotationTypeDeclaration modifiers) Tree.Ready := by
  unfold annotationTypeDeclaration
  refine .seq fun _ => .seq fun _ => .seqWith fun name hname => .seq fun _ =>
    .declares rfl hname .all trivial

/-- The declaration of a record may stand anywhere. -/
theorem builds_recordDeclaration :
    Builds x n (pieces modifiers) (g.recordDeclaration modifiers) Tree.Ready := by
  unfold recordDeclaration
  refine .seq fun _ => .seqWith fun name hname => .seq fun _ =>
    .seqWith fun components hcomponents => .seq fun _ => .seq fun _ =>
      .declares rfl hname .all hcomponents.2

/-! ### Members -/

/-- A constructor may stand anywhere. -/
theorem builds_constructorFrom (typeParameters : List (Node .typeParameter)) :
    Builds x n (pieces modifiers ++ pieces typeParameters)
      (g.constructorFrom modifiers typeParameters) Tree.Ready := by
  unfold constructorFrom
  exact .seq fun _ => .seqWith fun _ hparameters => .seq fun _ => .seq fun _ =>
    .ready rfl .all hparameters.2

/-- A compact constructor may stand anywhere. -/
theorem builds_compactConstructorFrom :
    Builds x n (pieces modifiers) (g.compactConstructorFrom modifiers) Tree.Ready := by
  unfold compactConstructorFrom
  exact .seq fun _ => .seq fun _ => .ready rfl .all trivial

instance : Makes x g.methodBody? Fine := by
  unfold methodBody?
  exact .free fun _ => .ask (.fine .all) (.seq fun _ => .fine .all)

/-- A method may stand anywhere, with a body or without. -/
theorem builds_methodFrom (typeParameters : List (Node .typeParameter)) (returnType : Node .type) :
    Builds x n (pieces modifiers ++ pieces typeParameters ++ pieces returnType)
      (g.methodFrom modifiers typeParameters returnType) Tree.Ready := by
  unfold methodFrom
  exact .seq fun _ => .seqWith fun _ hparameters => .seq fun _ => .seq fun _ => .seq fun _ =>
    .seq fun _ => .ready rfl .all hparameters.2

/-- Whether a method or fields are declared, the declaration may stand anywhere. -/
theorem builds_methodOrField (typeParameters : List (Node .typeParameter)) :
    Builds x n (pieces modifiers ++ pieces typeParameters)
      (g.methodOrField modifiers typeParameters) Tree.Ready := by
  unfold methodOrField
  refine .seq fun type => .ask (.weaken (builds_methodFrom n modifiers typeParameters type) .all) ?_
  refine .seqWith fun declarators hdeclarators => .seq fun _ => .ready rfl (fun q hq => ?_) ?_
  · change q ∈ (Tree.ofList modifiers).parts ++ type.parts ++ (Tree.ofList declarators).parts at hq
    change q ∈ (Tree.ofList modifiers).parts ++ (Tree.ofList typeParameters).parts ++ type.parts ++
      (Tree.ofList declarators).parts
    simp only [List.mem_append] at hq ⊢
    grind
  · exact Tree.isEmpty_ofList_of_ne_nil hdeclarators.1

/-- Whatever member comes after modifiers may stand anywhere. -/
theorem builds_memberAfterModifiers (className : Option String) :
    Builds x n (pieces modifiers) (g.memberAfterModifiers className modifiers) Tree.Ready := by
  unfold memberAfterModifiers
  refine .seq fun typeParameters => .ask (.seq fun next => .cases (fun _ => ?_) fun _ =>
    .cases (fun _ => ?_) fun _ => ?_) ?_
  · exact .weaken (builds_constructorFrom n modifiers typeParameters) .all
  · exact .weaken (builds_compactConstructorFrom n modifiers)
      fun q hq => List.mem_append_left _ hq
  · exact .weaken (builds_methodOrField n modifiers typeParameters) .all
  · exact .weaken (builds_methodOrField n modifiers typeParameters) .all

end AfterModifiers

instance (isStatic : Bool) : Makes x (g.initializerFrom isStatic) Tree.Ready := by
  unfold initializerFrom
  exact .free fun _ => .seq fun _ => .ready rfl .all trivial

instance (className : Option String) : Makes x (g.memberTree className) Tree.Ready := by
  unfold memberTree
  refine .start fun n => .ask (.ready rfl .all trivial) (.ask (.seq fun _ => .of_makes)
    (.ask .of_makes (.seq fun modifiers => .ask ?_ ?_)))
  · exact .chain (.weaken (hg.typeDeclaration n n modifiers) .all) fun _ => .ready rfl .all trivial
  · exact .weaken (builds_memberAfterModifiers n modifiers className) .all

instance (className : Option String) : Makes x (g.member className) Fine := by
  unfold member
  exact .start fun _ => .keep fun tree htree => .nodeOf (fun _ => htree) (by cases tree <;> rfl)

instance (className : Option String) : Makes x (g.members className) Fine := .fine (by
  unfold members
  infer_instance)

instance (className : Option String) : Makes x (g.classBodyBraces className) Fine := by
  unfold classBodyBraces
  exact .free fun _ => .seq fun _ => .seq fun _ => .seq fun _ => .fine .all

/-! ### Enums -/

instance : Makes x g.enumConstant Fine := by
  unfold enumConstant
  exact .start fun _ => .seq fun _ => .seq fun _ => .seq fun _ => .seq fun _ =>
    .node rfl .all trivial

instance : Makes x g.enumConstants fun constants => ∀ a ∈ constants, Fine a := by
  unfold enumConstants
  refine .free fun _ => .loop (fun constants => ∀ a ∈ constants, Fine a) nofun
    fun constants hconstants => .seq fun kind => .cases (fun _ => .pure fun _ => ?_) fun _ =>
      .keep fun constant hconstant => ?_
  · simpa using hconstants
  have hmore : ∀ a ∈ constant :: constants, Fine a :=
    List.forall_mem_cons.mpr ⟨hconstant, hconstants⟩
  refine .ask (.pure fun _ => hmore) (.pure fun _ => ?_)
  intro a ha
  exact hmore a (List.mem_reverse.mp ha)

instance (name : String) : Makes x (g.enumMembers name) Fine := by
  unfold enumMembers
  exact .free fun _ => .ask .of_makes (.fine .all)

/-- The declaration of an enum may stand anywhere. -/
theorem builds_enumDeclaration (n : Nat) (modifiers : List (Node .modifier)) :
    Builds x n (pieces modifiers) (g.enumDeclaration modifiers) Tree.Ready := by
  unfold enumDeclaration
  refine .seq fun _ => .seqWith fun name hname => .seq fun _ => .seq fun _ => .seq fun _ =>
    .seq fun _ => .seq fun _ => .declares rfl hname .all trivial

/-! ### Any declaration of a type -/

/-- Whatever type is declared after modifiers, its declaration may stand anywhere. -/
theorem builds_typeDeclarationTree (n : Nat) (modifiers : List (Node .modifier)) :
    Builds x n (pieces modifiers) (g.typeDeclarationTree modifiers) Tree.Ready := by
  unfold typeDeclarationTree
  refine .seq fun kind => ?_
  split
  · exact .weaken (builds_classDeclaration n modifiers) .all
  · exact .weaken (builds_interfaceDeclaration n modifiers) .all
  · exact .weaken (builds_enumDeclaration n modifiers) .all
  · exact .weaken (builds_annotationTypeDeclaration n modifiers) .all
  · exact .ask (.weaken (builds_recordDeclaration n modifiers) .all) .refuse
  · exact .refuse

/-- The node of a declared type may stand anywhere. -/
theorem builds_typeDeclarationBody (n start : Nat) (modifiers : List (Node .modifier)) :
    Builds x n (pieces modifiers) (g.typeDeclarationBody start modifiers) Fine := by
  unfold typeDeclarationBody
  exact .bind (builds_typeDeclarationTree n modifiers) fun tree htree =>
    .nodeOf (fun _ => htree) (by cases tree <;> rfl)

/-! ### Packages, imports and modules -/

instance : Makes x g.package? Fine := by
  unfold package?
  refine .start fun n => .seq fun annotations => .ask (.seq fun _ => .seq fun _ => ?_)
    (.goBack (.pure fun _ => nofun))
  exact .bind (.node rfl .all trivial) fun declaration hdeclaration => .pure fun _ => hdeclaration

instance : Makes x importDeclaration Fine := by
  unfold importDeclaration
  refine .start fun _ => .seq fun _ => .seq fun isStatic => ?_
  cases isStatic <;> exact .seq fun _ => .seq fun _ => .seq fun _ => .node rfl .all trivial

instance : Makes x imports fun imports => ∀ a ∈ imports, Fine a := by
  unfold imports
  refine .free fun _ => .loop (fun imports => ∀ a ∈ imports, Fine a) nofun fun imports himports =>
    .ask (.pure fun _ => himports) (.ask (.keep fun declaration hdeclaration => ?_)
      (.pure fun _ => ?_))
  · exact .pure fun _ => List.forall_mem_cons.mpr ⟨hdeclaration, himports⟩
  · simpa using himports

instance : Makes x g.providesFrom Tree.Ready := by
  unfold providesFrom
  exact .free fun _ => .seq fun _ => .seq fun _ => .seq fun _ => .ready rfl .all trivial

instance : Makes x g.directiveTree Tree.Ready := by
  unfold directiveTree
  have hmodifier : Makes x requiresModifier? fun found => ∀ modifier ∈ found, True :=
    .mono inferInstance fun _ _ _ _ => trivial
  refine .free fun _ => .ask ?_ (.ask ?_ (.ask ?_ (.ask ?_ ?_)))
  · exact .seq fun _ => .seq fun _ => .ready rfl .all trivial
  · exact .seq fun _ => .seq fun _ => .ready rfl .all trivial
  · exact .seq fun _ => .seq fun _ => .ready rfl .all trivial
  · exact .seq fun _ => .ready rfl .all trivial
  · exact .ask .of_makes .refuse

instance : Makes x g.directive Fine := by
  unfold directive
  exact .start fun _ => .keep fun tree htree => .seq fun _ =>
    .nodeOf (fun _ => htree) (by cases tree <;> rfl)

instance : Makes x g.atModule fun _ => True := by
  unfold atModule
  simp only [pure_bind]
  exact .start fun _ => .seq fun _ => .seq fun _ => .seq fun _ => .cases
    (fun _ => .seq fun _ => .goBack (.pure fun _ => trivial)) fun _ => .cases
      (fun _ => .seq fun _ => .goBack (.pure fun _ => trivial)) fun _ =>
        .goBack (.pure fun _ => trivial)

instance : Makes x g.moduleDeclaration Fine := by
  unfold moduleDeclaration
  have hbody : Makes x g.moduleBody Fine := by
    unfold moduleBody
    refine .start fun _ => .seq fun _ => .seq fun isOpen => ?_
    cases isOpen <;>
      exact .seq fun _ => .seq fun _ => .seq fun _ => .seq fun _ => .seq fun _ =>
        .node rfl .all trivial
  infer_instance

/-! ### The whole unit -/

instance : Makes x g.topLevelType Fine := by
  unfold topLevelType
  exact .start fun n => .seq fun modifiers =>
    .ask (.weaken (hg.typeDeclaration n n modifiers) .all) .refuse

instance : Makes x g.topLevelTypes fun types => ∀ a ∈ types, Fine a := by
  unfold topLevelTypes
  refine .free fun _ => .loop (fun types => ∀ a ∈ types, Fine a) nofun fun types htypes =>
    .ask (.pure fun _ => ?_) (.ask (.pure fun _ => htypes) (.keep fun type htype => ?_))
  · simpa using htypes
  · exact .pure fun _ => List.forall_mem_cons.mpr ⟨htype, htypes⟩

instance : Makes x g.unitTree Tree.Ready := by
  unfold unitTree
  refine .free fun _ => .seq fun package => .seq fun imports => .ask ?_ ?_
  · refine .seq fun module => .ready rfl (fun q hq => ?_) fun _ => rfl
    change q ∈ (Tree.ofOption package).parts ++ (Tree.ofList imports).parts ++ [] ++
      module.parts at hq
    rwa [List.append_nil] at hq
  · refine .seq fun types => .ready rfl (fun q hq => ?_) nofun
    change q ∈ (Tree.ofOption package).parts ++ (Tree.ofList imports).parts ++
      (Tree.ofList types).parts ++ [] at hq
    rwa [List.append_nil] at hq

instance : Makes x g.compilationUnit Fine := by
  rw [compilationUnit_eq]
  exact .start fun _ => .keep fun tree htree => .nodeOf (fun _ => htree) (by cases tree; rfl)

/-! ### Levels -/

/-- The innermost level keeps the rules, since it builds nothing. -/
theorem building_innermost : innermost.Building x := by
  have hnever {α : Type} {Q : α → Prop} : Makes x (refuseDepth : Parser α) Q := by
    unfold refuseDepth
    exact .free fun _ => .seq fun _ => .fail
  refine ⟨hnever, hnever, hnever, hnever, hnever, hnever, hnever, hnever, hnever, hnever, hnever,
    hnever, fun _ _ _ => ?_, fun _ => hnever, fun _ hrun => ?_⟩
  · have : Makes x (refuseDepth : Parser (Node .typeDeclaration)) Fine := hnever
    exact Builds.of_makes (p := refuseDepth)
  · obtain ⟨t, s₁, -, hthrow⟩ := bind_eq_ok hrun
    cases hthrow

/-- The initializer of an array is read from its opening brace. -/
theorem kind_of_arrayInitializerBody {g : Grammar} {s s' : ParserState} {a : Node .expression}
    {ws : List Word} (h : s.cursor.Faces x ws) (hrun : g.arrayInitializerBody s = (.ok a, s')) :
    (wordAt ws 0).kind = .leftBrace := by
  unfold arrayInitializerBody expect at hrun
  obtain ⟨start, s₀, hstart, hrun⟩ := bind_eq_ok hrun
  cases hstart
  obtain ⟨brace, s₁, hbrace, -⟩ := bind_eq_ok hrun
  obtain ⟨found, s₂, hcheck, hbrace⟩ := bind_eq_ok hbrace
  obtain ⟨rfl, -⟩ := (reaches_check h .leftBrace).of_ok hcheck
  split at hbrace
  · exact eq_of_beq ‹_›
  · exact absurd (congrArg Prod.fst hbrace) (unexpected_ne_ok _ _ _)

instance : g.around.Building x where
  annotationUse := inferInstanceAs (Makes x (guarded _ g.annotationBody) _)
  elementArray := inferInstanceAs (Makes x (guarded _ g.elementArrayBody) _)
  type := inferInstanceAs (Makes x (guarded _ g.typeBody) _)
  creationType := .fine (Q := fun a => Fine a ∧ a.inner.isArrayType = false)
    (inferInstanceAs (Makes x (guarded _ (g.elementType false)) _))
  expression := inferInstanceAs (Makes x (guarded _ g.expressionBody) _)
  conditional := inferInstanceAs (Makes x (guarded _ g.conditionalBody) _)
  unary := inferInstanceAs (Makes x (guarded _ g.unaryBody) _)
  pattern := inferInstanceAs (Makes x (guarded _ g.patternBody) _)
  arrayInitializer := inferInstanceAs (Makes x (guarded _ g.arrayInitializerBody) _)
  switchBody := inferInstanceAs (Makes x (guarded _ (withLambdas true g.switchCases)) _)
  block := inferInstanceAs (Makes x (guarded _ g.blockBody) _)
  statement := inferInstanceAs (Makes x (guarded _ g.statementBody) _)
  typeDeclaration n start modifiers := (builds_typeDeclarationBody n start modifiers).guarded _
  classBody className := inferInstanceAs (Makes x (guarded _ (g.classBodyBraces className)) _)
  kind_eq {s s' a ws} hfaces hrun := by
    obtain ⟨s₁, hbody, -⟩ := ok_of_guarded hrun
    have hentered : (entered "array initializer" s).cursor.Faces x ws := by
      rw [cursor_entered]
      exact hfaces.withJournal _
    exact kind_of_arrayInitializerBody hentered hbody

instance (n : Nat) : (levels n).Building x := by
  induction n with
  | zero => exact building_innermost
  | succ n ih => exact inferInstanceAs ((levels n).around.Building x)

end Grammar

instance : grammar.Building x := inferInstanceAs ((Grammar.levels _).Building x)

end JavaSyntax
