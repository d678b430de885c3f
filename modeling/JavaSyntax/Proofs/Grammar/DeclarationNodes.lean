import JavaSyntax.Grammar.Levels
import JavaSyntax.Proofs.Grammar.StatementNodes

/-!
# The nodes of declarations

Declarations of types, their members and whole compilation units yield sound nodes, and with
them every level of the grammar.
-/

namespace JavaSyntax

open Work JavaSyntax.Parser

variable {x : Tokenized}

namespace Grammar

variable {g : Grammar} [hg : g.Yielding x]

/-! ### Headers -/

instance (keyword : Keyword) : Yields x (g.typesAfter keyword) (fun _ => .opened) := by
  unfold typesAfter
  exact .free fun _ => .ask .tail .pure

instance : Yields x g.permitted (fun _ => .opened) := by
  unfold permitted
  exact .free fun _ => .ask .tail .pure

section AfterModifiers

variable (n : Nat) (modifiers : List (Node .modifier))

/-- The declaration of a class holds the modifiers before it, and all that is read for it. -/
theorem classDeclaration_shapes :
    Shapes x n (pieces modifiers) .opened (g.classDeclaration modifiers) fun _ => .taken := by
  unfold classDeclaration
  exact .seq fun _ => .seq fun _ => .seq fun _ => .seq fun _ => .seq fun _ => .seq fun _ =>
    .seq fun _ => .pure

/-- The declaration of an interface holds the modifiers before it, and all that is read for it. -/
theorem interfaceDeclaration_shapes :
    Shapes x n (pieces modifiers) .opened (g.interfaceDeclaration modifiers) fun _ => .taken := by
  unfold interfaceDeclaration
  exact .seq fun _ => .seq fun _ => .seq fun _ => .seq fun _ => .seq fun _ => .seq fun _ => .pure

/-- The declaration of an annotation type holds the modifiers before it, and all that is read for
it. -/
theorem annotationTypeDeclaration_shapes :
    Shapes x n (pieces modifiers) .opened (g.annotationTypeDeclaration modifiers)
      fun _ => .taken := by
  unfold annotationTypeDeclaration
  exact .seq fun _ => .seq fun _ => .seq fun _ => .seq fun _ => .pure

/-- The declaration of a record holds the modifiers before it, and all that is read for it. -/
theorem recordDeclaration_shapes :
    Shapes x n (pieces modifiers) .opened (g.recordDeclaration modifiers) fun _ => .taken := by
  unfold recordDeclaration
  exact .seq fun _ => .seq fun _ => .seq fun _ => .seq fun _ => .seq fun _ => .seq fun _ => .pure

/-! ### Members -/

/-- A constructor holds the modifiers and type parameters before its name. -/
theorem constructorFrom_shapes (typeParameters : List (Node .typeParameter)) :
    Shapes x n (pieces modifiers ++ pieces typeParameters) .opened
      (g.constructorFrom modifiers typeParameters) fun _ => .taken := by
  unfold constructorFrom
  exact .seq fun _ => .seq fun _ => .seq fun _ => .seq fun _ => .pure

/-- A compact constructor holds the modifiers before its name. -/
theorem compactConstructorFrom_shapes :
    Shapes x n (pieces modifiers) .opened (g.compactConstructorFrom modifiers)
      fun _ => .taken := by
  unfold compactConstructorFrom
  exact .seq fun _ => .seq fun _ => .pure

instance : Yields x g.methodBody? (fun _ => .taken) := by
  unfold methodBody?
  exact .free fun _ => .ask .pure (.seq fun _ => .pure)

/-- A method holds all that was read before its name, its type included. -/
theorem methodFrom_shapes (typeParameters : List (Node .typeParameter)) (returnType : Node .type) :
    Shapes x n (pieces modifiers ++ pieces typeParameters ++ pieces returnType) .taken
      (g.methodFrom modifiers typeParameters returnType) fun _ => .taken := by
  unfold methodFrom
  exact .seq fun _ => .seq fun _ => .seq fun _ => .seq fun _ => .seq fun _ => .seq fun _ => .pure

/-- Whether a method or fields are declared, what was read before the name is held. -/
theorem methodOrField_shapes (typeParameters : List (Node .typeParameter)) :
    Shapes x n (pieces modifiers ++ pieces typeParameters) .opened
      (g.methodOrField modifiers typeParameters) fun _ => .taken := by
  unfold methodOrField
  refine .seq fun type => .ask (methodFrom_shapes n modifiers typeParameters type).weaken ?_
  -- The type parameters of a field are read and left out.
  have hfield : Shapes x n (pieces modifiers ++ pieces type) .taken
      (g.variableDeclarators >>= fun declarators => expect .semicolon >>= fun _ =>
        pure (Tree.fieldDeclaration (.ofList modifiers) type (.ofList declarators)))
      fun _ => .taken := .seq fun _ => .seq fun _ => .pure
  refine .discard (hfield.weaken (.refl _) ?_) ?_
  · trivial
  · exact (List.sublist_append_left _ _).append_right _

instance (className : Option String) : Yields x (atClassName className) (fun _ => .fresh) := by
  unfold atClassName
  cases className with
  | none => exact .free fun _ => .pure
  | some name => exact .free fun _ => .ask (.look fun _ => .pure) .pure

/-- Whatever member comes after modifiers holds them. -/
theorem memberAfterModifiers_shapes (className : Option String) :
    Shapes x n (pieces modifiers) .opened (g.memberAfterModifiers className modifiers)
      fun _ => .taken := by
  unfold memberAfterModifiers
  refine .seq fun typeParameters => .ask
    (.look fun next => .cases (fun _ => ?_) fun _ => .cases ?_ fun _ => ?_) ?_
  · exact (constructorFrom_shapes n modifiers typeParameters).weaken
  · rintro ⟨-, hempty⟩
    obtain rfl : typeParameters = [] := by simpa using hempty
    exact (compactConstructorFrom_shapes n modifiers).weaken (.of_eq (List.append_nil _))
  · exact (methodOrField_shapes n modifiers typeParameters).weaken
  · exact (methodOrField_shapes n modifiers typeParameters).weaken

end AfterModifiers

instance (isStatic : Bool) : Yields x (g.initializerFrom isStatic) (fun _ => .taken) := by
  unfold initializerFrom
  exact .free fun _ => .seq fun _ => .pure

instance (className : Option String) : Yields x (g.memberTree className) (fun _ => .taken) := by
  unfold memberTree
  refine .start fun n => .ask .pure (.ask (.seq fun _ => .tail) (.ask .tail ?_))
  refine .seq fun modifiers => .ask ?_ (memberAfterModifiers_shapes n modifiers className).weaken
  exact .chain Effect.covering (hg.typeDeclaration n modifiers) fun _ => .pure

instance (className : Option String) : Yields x (g.member className) Effect.covering := by
  unfold member
  exact .start fun _ => .seq fun tree => .node (.refl _) (by cases tree <;> trivial)

instance (className : Option String) : Yields x (g.members className) (fun _ => .opened) := by
  unfold members
  infer_instance

instance (className : Option String) :
    Yields x (g.classBodyBraces className) (fun _ => .taken) := by
  unfold classBodyBraces
  exact .free fun _ => .seq fun _ => .seq fun _ => .seq fun _ => .pure

/-! ### Enums -/

instance : Yields x g.enumConstant Effect.covering := by
  unfold enumConstant
  exact .start fun _ => .seq fun _ => .seq fun _ => .seq fun _ => .seq fun _ => .node

instance : Yields x g.enumConstants (fun _ => .opened) := by
  unfold enumConstants
  refine .free fun _ => .loop (I := fun _ => .opened) fun constants => .look fun kind =>
    .cases (fun _ => .pure (Listed.perm_reverse constants)) fun _ => .seq fun constant => .ask ?_ ?_
  · exact .pure (Listed.perm_cons constant constants)
  · exact .pure ((Listed.perm_cons constant constants).trans (Listed.perm_reverse _))

instance (name : String) : Yields x (g.enumMembers name) (fun _ => .opened) := by
  unfold enumMembers
  exact .free fun _ => .ask .tail .pure

/-- The declaration of an enum holds the modifiers before it, its constants and its members. -/
theorem enumDeclaration_shapes (n : Nat) (modifiers : List (Node .modifier)) :
    Shapes x n (pieces modifiers) .opened (g.enumDeclaration modifiers) fun _ => .taken := by
  unfold enumDeclaration
  exact .seq fun _ => .seq fun _ => .seq fun _ => .seq fun _ => .seq fun _ => .seq fun _ =>
    .seq fun _ => .pure

/-! ### Any declaration of a type -/

/-- Whatever type is declared after modifiers, its declaration holds them. -/
theorem typeDeclarationTree_shapes (n : Nat) (modifiers : List (Node .modifier)) :
    Shapes x n (pieces modifiers) .opened (g.typeDeclarationTree modifiers) fun _ => .taken := by
  unfold typeDeclarationTree
  refine .look fun kind => ?_
  split
  · exact (classDeclaration_shapes n modifiers).weaken
  · exact (interfaceDeclaration_shapes n modifiers).weaken
  · exact (enumDeclaration_shapes n modifiers).weaken
  · exact (annotationTypeDeclaration_shapes n modifiers).weaken
  · exact .ask (.forget (recordDeclaration_shapes n modifiers)) .tail
  · exact .tail

/-- A declaration of a type starts where its modifiers do, and covers them. -/
theorem typeDeclarationBody_shapes (n : Nat) (modifiers : List (Node .modifier)) :
    Shapes x n (pieces modifiers) .opened (g.typeDeclarationBody n modifiers) Effect.covering := by
  unfold typeDeclarationBody
  exact .chain (fun _ => .taken) (typeDeclarationTree_shapes n modifiers) fun tree =>
    .node (.refl _) (by cases tree <;> trivial)

/-! ### Packages, imports and modules -/

instance : Yields x g.package? (fun _ => .opened) := by
  unfold package?
  refine .start fun _ => .seq fun _ => .ask (.seq fun _ => .seq fun _ => ?_) (.goBack .pure)
  exact .nodeThen (.refl _) trivial trivial fun _ _ => .pure

instance (names : List String) : Yields x (loop importedPart names) (fun _ => .any) := by
  refine .free fun _ => .loop (I := fun _ => .any) fun _ => ?_
  unfold importedPart
  exact .ask (.ask .pure (.seq fun _ => .pure)) .pure

instance : Yields x importDeclaration Effect.covering := by
  unfold importDeclaration
  refine .start fun _ => .seq fun _ => .seq fun isStatic => ?_
  cases isStatic <;> exact .seq fun _ => .seq fun _ => .seq fun _ => .node

instance : Yields x imports (fun _ => .opened) := by
  unfold imports
  refine .free fun _ => .loop (I := fun _ => .opened) fun imports => .ask .pure (.ask ?_ ?_)
  · exact .seq fun declaration => .pure (Listed.perm_cons declaration imports)
  · exact .pure (Listed.perm_reverse imports)

instance : Yields x requiresModifier? (fun found => if found.isSome then .taken else .fresh) := by
  unfold requiresModifier?
  have hstatic (n : Nat) : Shapes x n [] .fresh (eatKeyword .static >>= fun found =>
      if found = true then pure (some RequiresModifier.static) else pure none)
      fun found => if found.isSome then .taken else .fresh := .ask .pure .pure
  refine .free fun n => .ask (.look fun kind => .cases (fun _ => ?_) fun _ => ?_) (hstatic n).weaken
  · exact .seq fun _ => .pure
  · exact (hstatic n).weaken

instance : Yields x targetModules (fun _ => .opened) := by
  unfold targetModules
  exact .free fun _ => .ask .tail .pure

instance : Yields x g.providesFrom (fun _ => .taken) := by
  unfold providesFrom
  exact .free fun _ => .seq fun _ => .seq fun _ => .seq fun _ => .pure

instance : Yields x g.directiveTree (fun _ => .taken) := by
  unfold directiveTree
  have hmodifiers : Yields x (many requiresModifier?) fun _ => .opened :=
    Yields.le yields_many fun ms => by cases ms <;> trivial
  refine .free fun _ => .ask (.seq fun _ => .seq fun _ => .pure) (.ask ?_ (.ask ?_ (.ask ?_ ?_)))
  · exact .seq fun _ => .seq fun _ => .pure
  · exact .seq fun _ => .seq fun _ => .pure
  · exact .seq fun _ => .pure
  · exact .ask .tail .tail

instance : Yields x g.directive Effect.covering := by
  unfold directive
  exact .start fun _ => .seq fun tree => .seq fun _ => .node (.refl _) (by cases tree <;> trivial)

instance : Yields x g.atModule (fun _ => .fresh) := by
  unfold atModule
  simp only [pure_bind]
  exact .start fun _ => .seq fun _ => .seq fun _ => .seq fun _ => .cases
    (fun _ => .seq fun _ => .goBack .pure)
    fun _ => .cases (fun _ => .seq fun _ => .goBack .pure) fun _ => .goBack .pure

instance : Yields x g.moduleDeclaration Effect.covering := by
  unfold moduleDeclaration
  have hbody : Yields x g.moduleBody Effect.covering := by
    unfold moduleBody
    refine .start fun _ => .seq fun _ => .seq fun isOpen => ?_
    cases isOpen <;>
      exact .seq fun _ => .seq fun _ => .seq fun _ => .seq fun _ => .seq fun _ => .node
  infer_instance

/-! ### The whole unit -/

instance : Yields x g.topLevelType Effect.covering := by
  unfold topLevelType
  exact .start fun n => .seq fun modifiers => .ask (hg.typeDeclaration n modifiers).weaken .tail

instance : Yields x g.topLevelTypes (fun _ => .opened) := by
  unfold topLevelTypes
  refine .free fun _ => .loop (I := fun _ => .opened) fun types => .ask ?_ (.ask .pure ?_)
  · exact .pure (Listed.perm_reverse types)
  · exact .seq fun type => .pure (Listed.perm_cons type types)

/-- Reads what a compilation unit is. -/
def unitTree (g : Grammar) : Parser (Tree .compilationUnit) := do
  let package ← g.package?
  let imports ← imports
  if ← g.atModule then
    let module ← g.moduleDeclaration
    return .compilationUnit (.ofOption package) (.ofList imports) .nil (.present module)
  else
    let types ← g.topLevelTypes
    return .compilationUnit (.ofOption package) (.ofList imports) (.ofList types) .absent

/-- A compilation unit is a node for what is read of it. -/
theorem compilationUnit_eq (g : Grammar) :
    g.compilationUnit = position >>= fun start => g.unitTree >>= fun tree => node start tree := by
  unfold compilationUnit unitTree
  simp only [bind_assoc]
  refine bind_congr fun start => bind_congr fun package => bind_congr fun imports =>
    bind_congr fun found => ?_
  cases found <;> simp

instance : Yields x g.unitTree (fun _ => .opened) := by
  unfold unitTree
  refine .free fun _ => .seq fun package => .seq fun imports => .ask ?_ ?_
  · exact .seq fun module => .pure (.append_right _ (.of_eq (List.append_nil _).symm))
  · exact .seq fun types => .pure (.of_eq (List.append_nil _).symm)

/-- A compilation unit that holds no node holds nothing. -/
theorem eq_of_parts_eq_nil {tree : Tree .compilationUnit} (h : tree.parts = []) :
    tree = .compilationUnit .absent .nil .nil .absent := by
  have hoption {f : Form} {t : Tree (.option (.node f))} (ht : t.parts = []) : t = .absent := by
    cases t with
    | absent => rfl
    | present a =>
      change a.parts = [] at ht
      simp at ht
  have hlist {f : Form} {t : Tree (.list (.node f))} (ht : t.parts = []) : t = .nil := by
    cases t with
    | nil => rfl
    | cons a rest =>
      change a.parts ++ rest.parts = [] at ht
      simp at ht
  cases tree with
  | compilationUnit package imports types module =>
    change package.parts ++ imports.parts ++ types.parts ++ module.parts = [] at h
    simp only [List.append_eq_nil_iff] at h
    obtain ⟨⟨⟨hpackage, himports⟩, htypes⟩, hmodule⟩ := h
    rw [hoption hpackage, hlist himports, hlist htypes, hoption hmodule]

/-- A compilation unit is a node of all that was passed, unless there is nothing to read. -/
theorem compilationUnit_run {s s' : ParserState} {a : Node .compilationUnit} (hs : s.cursor.On x)
    (hrun : g.compilationUnit s = (.ok a, s')) :
    (∃ ts, Stretch x s.cursor ts a.parts (.covering a) s'.cursor) ∨
      a.inner = .compilationUnit .absent .nil .nil .absent ∧
        a.span = s'.cursor.spanFrom s.cursor.position ∧
        a.source = s'.cursor.sourceText a.span ∧ Stretch x s.cursor [] [] .fresh s'.cursor := by
  rw [compilationUnit_eq] at hrun
  obtain ⟨start, s₀, hstart, hrun⟩ := bind_eq_ok hrun
  cases hstart
  obtain ⟨tree, s₁, htree, hrun⟩ := bind_eq_ok hrun
  rw [node_apply] at hrun
  cases hrun
  obtain ⟨ts, hstretch⟩ := Yields.run hs htree
  rcases hstretch.holds with ⟨rfl, hleading⟩ | hheads
  · right
    have hparts : tree.parts = [] := by
      refine List.eq_nil_iff_forall_not_mem.mpr fun p hp => ?_
      obtain ⟨t, ht, -⟩ := hstretch.fits.after p hp
      cases ht
    have hfresh : Stretch x s.cursor [] [] .fresh s'.cursor :=
      ⟨hstretch.course, hstretch.passed_eq, .nil _, rfl, hleading⟩
    exact ⟨eq_of_parts_eq_nil hparts, rfl, rfl, hfresh⟩
  · left
    have htaken : Stretch x s.cursor ts tree.parts .taken s'.cursor :=
      ⟨hstretch.course, hstretch.passed_eq, hstretch.fits, hheads⟩
    refine ⟨ts, ?_⟩
    rw [Tree.parts_node]
    exact htaken.node hs (by cases tree; trivial) trivial rfl (Part.ruled_of_ne (by decide))

/-! ### Levels -/

/-- The innermost level yields sound nodes, since it yields none. -/
theorem yielding_innermost : innermost.Yielding x := by
  have hrefuse {α : Type} [Bears α] : Yields x (refuseDepth : Parser α) fun _ => .never := by
    unfold refuseDepth
    exact .free fun _ => .look fun _ => .tail
  have hnever {α : Type} [Bears α] {effect : α → Effect} :
      Yields x (refuseDepth : Parser α) effect := hrefuse.le fun _ => Effect.never_le _
  have hdeclaration (n : Nat) (modifiers : List (Node .modifier)) :
      Shapes x n (pieces modifiers) .opened (refuseDepth : Parser (Node .typeDeclaration))
        Effect.covering := .tail (by simp)
  exact ⟨hnever, hnever, hnever, hnever, hnever, hnever, hnever, hnever, hnever, hnever, hnever,
    hnever, hdeclaration, fun _ => hnever⟩

instance [g.Nesting] : g.around.Yielding x where
  annotationUse := inferInstanceAs (Yields x (guarded _ g.annotationBody) _)
  elementArray := inferInstanceAs (Yields x (guarded _ g.elementArrayBody) _)
  type := inferInstanceAs (Yields x (guarded _ g.typeBody) _)
  creationType := inferInstanceAs (Yields x (guarded _ (g.elementType false)) _)
  expression := inferInstanceAs (Yields x (guarded _ g.expressionBody) _)
  conditional := inferInstanceAs (Yields x (guarded _ g.conditionalBody) _)
  unary := inferInstanceAs (Yields x (guarded _ g.unaryBody) _)
  pattern := inferInstanceAs (Yields x (guarded _ g.patternBody) _)
  arrayInitializer := inferInstanceAs (Yields x (guarded _ g.arrayInitializerBody) _)
  switchBody := inferInstanceAs (Yields x (guarded _ (withLambdas true g.switchCases)) _)
  block := inferInstanceAs (Yields x (guarded _ g.blockBody) _)
  statement := inferInstanceAs (Yields x (guarded _ g.statementBody) _)
  typeDeclaration n modifiers := (typeDeclarationBody_shapes n modifiers).guarded _
  classBody className := inferInstanceAs (Yields x (guarded _ (g.classBodyBraces className)) _)

instance (n : Nat) : (levels n).Yielding x := by
  induction n with
  | zero => exact yielding_innermost
  | succ n ih =>
    have hnesting := nesting_levels n
    exact inferInstanceAs ((levels n).around.Yielding x)

end Grammar

instance : grammar.Yielding x := inferInstanceAs ((Grammar.levels _).Yielding x)

end JavaSyntax
