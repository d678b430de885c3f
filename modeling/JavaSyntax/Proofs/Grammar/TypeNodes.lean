import JavaSyntax.Proofs.Syntax.Steps

/-!
# The nodes of types and what they need

Given a record of guarded productions that yield sound nodes, every production around them
does: one instance for each, along its definition. This file goes from names and literals
to types, patterns, variables and arguments.
-/

namespace JavaSyntax

open JavaSyntax.Parser

/-- The guarded productions of a record yield sound nodes. -/
class Grammar.Yielding (x : Tokenized) (g : Grammar) : Prop where
  annotationUse : Yields x g.annotationUse Effect.covering
  elementArray : Yields x g.elementArray fun _ => .step
  type : Yields x g.type Effect.covering
  creationType : Yields x g.creationType Effect.covering
  expression : Yields x g.expression Effect.covering
  conditional : Yields x g.conditional Effect.covering
  unary : Yields x g.unary Effect.operand
  pattern : Yields x g.pattern Effect.covering
  arrayInitializer : Yields x g.arrayInitializer Effect.covering
  switchBody : Yields x g.switchBody fun _ => .opened
  block : Yields x g.block Effect.covering
  statement : Yields x g.statement Effect.covering
  typeDeclaration : ∀ n modifiers,
    Shapes x n (pieces modifiers) .opened (g.typeDeclaration n modifiers) Effect.covering
  classBody : ∀ className, Yields x (g.classBody className) fun _ => .taken

namespace Grammar

variable {x : Tokenized} {g : Grammar} [hg : g.Yielding x]

instance : Yields x g.annotationUse Effect.covering := hg.annotationUse

instance : Yields x g.elementArray (fun _ => .step) := hg.elementArray

instance : Yields x g.type Effect.covering := hg.type

instance : Yields x g.creationType Effect.covering := hg.creationType

instance : Yields x g.expression Effect.covering := hg.expression

instance : Yields x g.conditional Effect.covering := hg.conditional

instance : Yields x g.unary Effect.operand := hg.unary

instance : Yields x g.pattern Effect.covering := hg.pattern

instance : Yields x g.arrayInitializer Effect.covering := hg.arrayInitializer

instance : Yields x g.switchBody (fun _ => .opened) := hg.switchBody

instance : Yields x g.block Effect.covering := hg.block

instance : Yields x g.statement Effect.covering := hg.statement

instance (className : Option String) : Yields x (g.classBody className) (fun _ => .taken) :=
  hg.classBody className

/-! ### Names, literals and brackets -/

instance (first second : TokenKind) :
    Yields x (checkPair first second) (fun found => if found then .facing first else .fresh) := by
  unfold checkPair
  refine .free fun _ => .ask (.seq fun kind => .pure (.refl _) ?_) .pure
  cases kind == second <;> simp

instance : Yields x qualifiedName (fun _ => .taken) := by
  unfold qualifiedName
  have hpart : Yields x (Parser.advance >>= fun _ => expectIdentifier) fun _ => .step :=
    .free fun _ => .seq fun _ => .tail
  have hparts : Yields x (manyWhile (checkPair .dot .identifier)
      (Parser.advance >>= fun _ => expectIdentifier)) fun _ => .opened := yields_manyWhile
  exact .free fun _ => .seq fun _ => .seq fun _ => .pure

instance : Yields x identifierList (fun _ => .taken) := by
  unfold identifierList
  infer_instance

instance (negated : Bool) : Yields x (literal negated) (fun _ => .taken) := by
  unfold literal
  refine .free fun _ => .seq fun kind => ?_
  split
  · exact .tail (by simp)
  · rename_i kind' hkind
    have hleads : kind.leads = true := by
      cases kind <;> first | rfl | cases hkind
    simp only [Effect.facing, hleads, if_true]
    exact .look fun t => .cases (fun _ => .fail) fun _ => .seq fun _ => .pure

instance : Yields x emptyDimensions (fun _ => .opened) := by
  unfold emptyDimensions
  have hpart : Yields x (Parser.advance >>= fun _ => Parser.advance) fun _ => .step :=
    .free fun _ => .seq fun _ => .tail
  have hparts : Yields x (manyWhile (checkPair .leftBracket .rightBracket)
      (Parser.advance >>= fun _ => Parser.advance)) fun _ => .opened := yields_manyWhile
  exact .free fun _ => .seq fun _ => .pure

instance : Yields x expectClosingAngle (fun _ => .step) := by
  unfold expectClosingAngle
  exact .free fun _ => .closing (fun _ => .pure) .tail

instance : Yields x atNonSealed (fun found => if found then .faced else .fresh) := by
  unfold atNonSealed
  refine .free fun _ => .askNot .pure
    (.seq fun second => .cases (fun _ => .pure) fun _ => .askNot .pure ?_)
  refine .look fun first => .seq fun second => .seq fun third => .pure (.refl _) ?_
  cases areAdjacent first second third <;> trivial

/-! ### Modifiers -/

instance : Yields x atAnnotation (fun found => if found then .faced else .fresh) := by
  unfold atAnnotation
  refine .free fun _ => .ask (.seq fun kind => .pure (.refl _) ?_) .pure
  cases kind != .keyword .interface <;> trivial

instance : Yields x g.annotations (fun _ => .opened) := by
  unfold annotations
  infer_instance

instance : Yields x g.elementValue (fun _ => .taken) := by
  unfold elementValue
  refine .free fun _ => .seq fun kind => ?_
  split
  · exact .seq fun _ => .pure
  · exact .tail
  · exact .forget (.seq fun _ => .pure)

instance : Yields x g.elementArrayBody (fun _ => .step) := by
  unfold elementArrayBody
  exact .free fun _ => .seq fun _ => .seq fun _ => .seq fun _ => .pure

instance : Yields x g.elementValuePair (fun _ => .taken) := by
  unfold elementValuePair
  exact .free fun _ => .seq fun _ => .seq fun _ => .seq fun _ => .pure

instance : Yields x g.annotationArguments (fun _ => .opened) := by
  unfold annotationArguments
  exact .free fun _ => .ask .pure (.ask (.seq fun _ => .pure) (.seq fun _ => .pure))

instance : Yields x g.optionalArguments (fun _ => .opened) := by
  unfold optionalArguments
  exact .free fun _ => .ask (.seq fun _ => .seq fun _ => .pure) .pure

instance : Yields x g.annotationBody Effect.covering := by
  unfold annotationBody
  exact .start fun _ => .seq fun _ => .seq fun _ => .seq fun _ => .node

instance : Yields x sealing? (fun found => if found.isSome then .taken else .fresh) := by
  unfold sealing?
  have hnon (n : Nat) : Shapes x n [] .fresh (atNonSealed >>= fun found => if found = true then
      Parser.advance >>= fun _ => Parser.advance >>= fun _ => Parser.advance >>= fun _ =>
        pure (some Tree.nonSealedModifier) else pure none)
      fun found => if found.isSome then .taken else .fresh :=
    .ask (.seq fun _ => .seq fun _ => .seq fun _ => .pure) .pure
  refine .free fun n => .ask (.seq fun kind => .cases (fun _ => ?_) fun _ => ?_) (hnon n).weaken
  · exact .seq fun _ => .pure
  · exact (hnon n).weaken

instance (keyword : Keyword) : Yields x (isModifierHere keyword) (fun _ => .fresh) := by
  unfold isModifierHere
  split
  · exact .free fun _ => .seq fun _ => .pure
  · exact .free fun _ => .seq fun _ => .pure
  · exact .free fun _ => .pure

instance : Yields x g.modifier? (fun found => if found.isSome then .taken else .fresh) := by
  unfold modifier?
  refine .free fun _ => .seq fun kind => ?_
  split
  · exact .ask (.seq fun a => .unwrap (G := []) .pure) .pure
  · exact .ask (.seq fun _ => .pure) .pure
  · exact .tail
  · exact .forget .pure

instance : Yields x g.modifiers (fun _ => .opened) := by
  unfold modifiers
  have hitem : Yields x (position >>= fun start => g.modifier? >>= fun found =>
      match found with
      | some tree => node start tree >>= fun a => pure (some a)
      | none => pure none) fun found => if found.isSome then .taken else .fresh := by
    refine .start fun n => .seq fun found => ?_
    cases found with
    | none => exact .pure
    | some tree => exact .nodeThen (.refl _) (by cases tree <;> trivial) trivial fun a _ => .pure
  exact Yields.le yields_many fun ms => by cases ms <;> trivial

/-! ### Types -/

instance : Yields x atSegment (fun found => if found then .faced else .fresh) := by
  unfold atSegment
  refine .free fun _ => .ask (.seq fun kind => .pure (.refl _) ?_) .pure
  cases kind == .identifier || kind == .at <;> trivial

instance : Yields x g.wildcardBound? (fun _ => .opened) := by
  unfold wildcardBound?
  exact .free fun _ => .ask (.seq fun _ => .pure) (.ask (.seq fun _ => .pure) .pure)

instance : Yields x g.typeArgument (fun _ => .taken) := by
  unfold typeArgument
  exact .start fun _ => .seq fun _ => .ask (.seq fun _ => .node) (.goBack .tail)

instance : Yields x g.typeArguments (fun _ => .taken) := by
  unfold typeArguments
  exact .free fun _ => .seq fun _ => .closing (fun _ => .pure)
    (.seq fun _ => .seq fun _ => .pure)

instance : Yields x g.typeArguments? (fun _ => .opened) := by
  unfold typeArguments?
  infer_instance

instance : Yields x g.typeArgumentsOrNone (fun _ => .opened) := by
  unfold typeArgumentsOrNone
  refine .free fun _ => .seq fun found => ?_
  cases found <;> exact .pure

/-- A class type starts with the annotations before it and covers them. -/
theorem classTypeFrom_shapes (n : Nat) (annotations : List (Node .annotationUse)) :
    Shapes x n (pieces annotations) .opened (g.classTypeFrom n annotations) Effect.covering := by
  unfold classTypeFrom
  simp only [segment, bind_assoc, pure_bind]
  refine .look fun first => .seq fun name => .seq fun arguments => .chain (d := .taken)
    (fun _ => .taken) (.loop (I := fun _ => .taken) fun (last, segments) => .ask ?_ ?_)
    (fun (last, segments) => .cases (fun _ => .fail) fun _ => .node) ?_
  · refine .seq fun _ => .seq fun annotations => .look fun token => .seq fun name =>
      .seq fun arguments => .pure ?_
    exact (List.Perm.of_eq (List.append_assoc ..)).trans List.perm_append_comm
  · exact .pure (Listed.perm_reverse segments)
  · exact .of_eq (List.append_nil _).symm

instance : Yields x g.classType Effect.covering := by
  unfold classType
  exact .start fun n => .seq fun annotations => (classTypeFrom_shapes n annotations).weaken

instance : Yields x g.classTypeList (fun _ => .taken) := by
  unfold classTypeList
  infer_instance

instance : Yields x primitive? (fun found => if found.isSome then .faced else .fresh) := by
  unfold primitive?
  refine .free fun _ => .seq fun kind => ?_
  split
  · rename_i keyword
    cases h : PrimitiveType.ofKeyword? keyword <;> exact .pure
  · exact .forget .pure

instance : Yields x atVar (fun found => if found then .faced else .fresh) := by
  unfold atVar
  refine .free fun _ => .ask (.seq fun kind => .pure (.refl _) ?_) .pure
  cases !(kind == .dot || kind == .less) <;> trivial

instance (allowVar : Bool) : Yields x (g.elementType allowVar) Effect.covering := by
  unfold elementType
  refine .start fun n => .seq fun annotations => .seq fun found => ?_
  have hclass := classTypeFrom_shapes (x := x) (g := g) n annotations
  cases found with
  | some primitive => exact .seq fun _ => .node
  | none =>
    refine .cases (fun hempty => ?_) fun _ => hclass.weaken
    obtain rfl : annotations = [] := by simpa using (Bool.and_eq_true_iff.mp hempty).2
    exact .ask (.seq fun _ => .node) hclass.weaken

instance : Yields x atDimension (fun _ => .fresh) := by
  unfold atDimension
  exact .free fun _ => .look fun _ => .pure

instance : Yields x g.dimension? (fun found => if found.isSome then .taken else .fresh) := by
  unfold dimension?
  refine .free fun _ => .ask (.start (fun found => if found.isSome then .taken else .fresh) fun n =>
    .seq fun annotations => .ask ?_ (.goBack .pure)) .pure
  exact .seq fun _ => .seq fun _ => .pure

instance : Yields x (many g.dimension?) (fun ds => if ds.isEmpty then .fresh else .opened) :=
  yields_many

instance : Yields x g.typeBody Effect.covering := by
  unfold typeBody
  refine .start fun _ => .seq fun element => .seq fun dimensions => ?_
  cases dimensions with
  | nil => exact .pure (.of_eq (List.append_nil _))
  | cons d ds => exact .node

instance : Yields x g.resultType Effect.covering := by
  unfold resultType
  exact .free fun _ => .ask (.startFaced Effect.covering fun _ => .seq fun _ => .node) .tail

instance : Yields x g.catchTypes (fun _ => .taken) := by
  unfold catchTypes
  infer_instance

instance : Yields x g.castType (fun _ => .taken) := by
  unfold castType
  refine .start fun n => .seq fun first => .seq fun others => ?_
  cases others with
  | nil => exact .pure (.of_eq (List.append_nil _))
  | cons => exact .node

instance : Yields x g.typeBounds (fun _ => .opened) := by
  unfold typeBounds
  exact .free fun _ => .ask .tail .pure

instance : Yields x g.typeParameter Effect.covering := by
  unfold typeParameter
  exact .start fun _ => .seq fun _ => .seq fun _ => .seq fun _ => .node

instance : Yields x g.typeParameters (fun _ => .opened) := by
  unfold typeParameters
  exact .free fun _ => .ask (.seq fun _ => .seq fun _ => .pure) .pure

/-! ### Patterns -/

instance : Yields x atUnnamed (fun found => if found then .faced else .fresh) := by
  unfold atUnnamed
  refine .free fun _ => .ask (.seq fun kind => .pure (.refl _) ?_) .pure
  cases kind == .comma || kind == .rightParen <;> trivial

instance : Yields x g.patternComponents (fun _ => .opened) := by
  unfold patternComponents
  simp only [pure_bind]
  exact .free fun _ => .ask (.seq fun _ => .pure) (.seq fun _ => .seq fun _ => .pure)

instance : Yields x g.patternBody Effect.covering := by
  unfold patternBody
  refine .start fun _ => .ask (.seq fun _ => .node) (.seq fun modifiers => .seq fun type => ?_)
  have htype (n : Nat) : Shapes x n [(Tree.ofList modifiers).parts, type.parts] .taken
      (expectIdentifier >>= fun name =>
        node n (.typePattern (.ofList modifiers) type name)) Effect.covering := .seq fun _ => .node
  refine .cases (fun hempty => .ask (.seq fun components => .node ?_) (htype _).weaken)
    fun _ => (htype _).weaken
  obtain rfl : modifiers = [] := by simpa using hempty
  exact .refl _

/-! ### Variables -/

instance : Yields x g.arguments (fun _ => .taken) := by
  unfold arguments
  simp only [pure_bind]
  exact .free fun _ => .seq fun _ => .withLambdas
    (.ask (.seq fun _ => .pure) (.seq fun _ => .seq fun _ => .pure))

instance : Yields x g.variableInitializer Effect.covering := by
  unfold variableInitializer
  exact .free fun _ => .ask .tail .tail

instance : Yields x g.arrayInitializerBody Effect.covering := by
  unfold arrayInitializerBody
  exact .start fun _ => .seq fun _ => .seq fun _ => .seq fun _ => .node

instance : Yields x g.variableDeclarator Effect.covering := by
  unfold variableDeclarator
  exact .start fun _ => .seq fun _ => .seq fun _ => .seq fun _ => .node

instance : Yields x g.variableDeclarators (fun _ => .taken) := by
  unfold variableDeclarators
  infer_instance

/-- The declaration of a local variable holds the modifiers before it. -/
theorem localVariable_shapes (n : Nat) (modifiers : List (Node .modifier)) :
    Shapes x n (pieces modifiers) .opened (g.localVariable modifiers) fun _ => .taken := by
  unfold localVariable
  exact .seq fun _ => .seq fun _ => .pure

instance : Yields x atReceiver (fun _ => .fresh) := by
  unfold atReceiver
  exact .free fun _ => .ask .pure (.ask (.seq fun _ => .pure) .pure)

instance : Yields x receiverName (fun _ => .taken) := by
  unfold receiverName
  have hqualifier : Yields x (expectIdentifier >>= fun name => expect .dot >>= fun _ =>
      pure (name ++ ".")) fun _ => .taken := .free fun _ => .seq fun _ => .seq fun _ => .pure
  exact .free fun _ => .seq fun _ => .seq fun _ => .pure

instance (isFirst : Bool) : Yields x (g.parameter isFirst) Effect.covering := by
  unfold parameter
  refine .start fun n => .seq fun modifiers => .seq fun type => .seq fun varargs => ?_
  have hplain : Shapes x n [(Tree.ofList modifiers).parts, type.parts] .taken
      (expectIdentifier >>= fun name => emptyDimensions >>= fun dimensions =>
        node n (.parameter (.ofList modifiers) type varargs name dimensions false))
      Effect.covering := .seq fun _ => .seq fun _ => .node
  cases varargs with
  | true => exact hplain.weaken
  | false =>
    refine .ask (.cases (fun _ => .look fun _ => .fail) fun _ => ?_) hplain.weaken
    exact .seq fun _ => .node

instance : Yields x g.parameterList (fun _ => .opened) := by
  unfold parameterList
  exact .free fun _ => .ask .pure (.seq fun _ => .seq fun _ => .pure)

instance : Yields x g.formalParameters (fun _ => .taken) := by
  unfold formalParameters
  exact .free fun _ => .seq fun _ => .seq fun _ => .seq fun _ => .pure

end Grammar

end JavaSyntax
