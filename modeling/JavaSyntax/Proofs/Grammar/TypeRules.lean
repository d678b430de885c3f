import JavaSyntax.Proofs.Grammar.TypeNodes
import JavaSyntax.Proofs.Lexer.Delivery
import JavaSyntax.Proofs.Syntax.Builds
import JavaSyntax.Proofs.Syntax.Reaches

/-!
# The rules that types keep

Given a record of guarded productions that build nodes which may stand anywhere, so do the
productions around them, except for those whose results have their places: type arguments, which
can be wildcards, and the segments that hold them. This file goes from names and literals to
types, patterns, variables and parameters.
-/

namespace JavaSyntax

open Work JavaSyntax.Parser

/-- A node that may stand anywhere, in which an operator that it starts with is its own. -/
def Prefixed (a : Node .expression) : Prop :=
  Fine a ∧ (a.sign?.isSome = true → a.inner.isPrefixed = true)

instance : Enough Prefixed := ⟨fun _ h => h.1⟩

/-- The guarded productions of a record build nodes that may stand anywhere. -/
class Grammar.Building (x : Tokenized) (g : Grammar) : Prop where
  annotationUse : Makes x g.annotationUse Fine
  elementArray : Makes x g.elementArray Fine
  type : Makes x g.type Fine
  creationType : Makes x g.creationType Fine
  expression : Makes x g.expression Fine
  conditional : Makes x g.conditional Fine
  unary : Makes x g.unary Prefixed
  pattern : Makes x g.pattern Fine
  arrayInitializer : Makes x g.arrayInitializer Fine
  switchBody : Makes x g.switchBody fun body => Fine body ∧ body.WellFormed
  block : Makes x g.block Fine
  statement : Makes x g.statement Fine
  typeDeclaration : ∀ n start modifiers,
    Builds x n (pieces modifiers) (g.typeDeclaration start modifiers) Fine
  classBody : ∀ className, Makes x (g.classBody className) Fine
  /-- An array initializer starts with its brace. -/
  kind_eq : ∀ {s s' : ParserState} {a : Node .expression} {ws : List Word},
    s.cursor.Faces x ws → g.arrayInitializer s = (.ok a, s') → (wordAt ws 0).kind = .leftBrace

namespace Grammar

variable {x : Tokenized} {g : Grammar} [hg : g.Building x]

instance : Makes x g.annotationUse Fine := hg.annotationUse

instance : Makes x g.elementArray Fine := hg.elementArray

instance : Makes x g.type Fine := hg.type

instance : Makes x g.creationType Fine := hg.creationType

instance : Makes x g.expression Fine := hg.expression

instance : Makes x g.conditional Fine := hg.conditional

instance : Makes x g.unary Prefixed := hg.unary

instance : Makes x g.pattern Fine := hg.pattern

instance : Makes x g.arrayInitializer Fine := hg.arrayInitializer

instance : Makes x g.switchBody (fun body => Fine body ∧ body.WellFormed) := hg.switchBody

instance : Makes x g.block Fine := hg.block

instance : Makes x g.statement Fine := hg.statement

instance (className : Option String) : Makes x (g.classBody className) Fine :=
  hg.classBody className

/-! ### Literals and names -/

/-- A literal needs a minus sign if its token does. -/
theorem needsMinus_eq {t : Token} {kind : LiteralKind}
    (h : LiteralKind.ofToken? t.kind = some kind) :
    LiteralText.needsMinus ⟨kind, t.value, t.source⟩ = Parser.needsMinus t := by
  unfold LiteralText.needsMinus Parser.needsMinus
  cases ht : t.kind <;> rw [ht] at h <;> cases h <;> rfl

/-- A literal is what the lexer makes of its text. It needs no minus sign, unless it is known to
stand after one. -/
instance (negated : Bool) :
    Makes x (literal negated) fun l => l.Genuine ∧ (negated = false → l.needsMinus = false) := by
  refine .of_yields fun {s s' l} hs hrun => ?_
  unfold literal currentKind peekKind at hrun
  rw [bind_assoc] at hrun
  obtain ⟨t, s₁, hpeek, hrun⟩ := bind_eq_ok hrun
  obtain ⟨hs₁, -, hat⟩ := at_of_peek hs hpeek
  rw [pure_bind] at hrun
  cases hkind : LiteralKind.ofToken? t.kind with
  | none =>
    simp only [hkind] at hrun
    exact absurd (congrArg Prod.fst hrun) (unexpected_ne_ok _ _ _)
  | some kind =>
    simp only [hkind, bind_apply, hat.peek_apply] at hrun
    split at hrun
    · cases hrun
    rename_i hminus
    rw [bind_apply, hat.advance_apply] at hrun
    cases hrun
    have hleads : t.kind.leads = true := by
      cases ht : t.kind <;> rw [ht] at hkind <;> first | rfl | cases hkind
    have hmem : t ∈ x.tokens := hs₁.mem_of_leads (Array.mem_of_getElem? hat).val hleads
    obtain ⟨m, hdelivers⟩ := x.exists_delivers
    refine ⟨⟨t.kind, hkind, hdelivers.decode_eq t hmem⟩, ?_⟩
    rintro rfl
    rw [needsMinus_eq hkind]
    simpa using hminus

/-- The name of a type that is declared is one for types. -/
instance : Makes x expectTypeIdentifier fun name => isRestrictedTypeName name = false := by
  refine .of_yields fun {s s' name} hs hrun => ?_
  unfold expectTypeIdentifier at hrun
  obtain ⟨t, s₁, hpeek, hrun⟩ := bind_eq_ok hrun
  obtain ⟨hs₁, -, hat⟩ := at_of_peek hs hpeek
  split at hrun
  · cases hrun
  rename_i hunrestricted
  obtain ⟨hkind, rfl⟩ := hat.of_expectIdentifier hrun
  exact Bool.eq_false_iff.mpr fun h => hunrestricted ⟨hkind, h⟩

/-! ### Modifiers -/

instance : Makes x g.annotations Fine := .fine (by
  unfold annotations
  infer_instance)

instance : Makes x g.elementValue Fine := by
  unfold elementValue
  refine .free fun _ => .keep fun kind _ => ?_
  split
  · exact .seq fun _ => .fine .all
  · exact .of_makes
  · exact .seq fun _ => .fine .all

instance : Makes x g.elementArrayBody Fine := by
  unfold elementArrayBody
  exact .free fun _ => .seq fun _ => .seq fun _ => .seq fun _ => .fine .all

instance : Makes x g.elementValuePair Fine := by
  unfold elementValuePair
  exact .free fun _ => .seq fun _ => .seq fun _ => .seq fun _ => .fine .all

instance : Makes x g.annotationArguments Fine := by
  unfold annotationArguments
  exact .free fun _ => .ask (.fine .all)
    (.ask (.seq fun _ => .fine .all) (.seq fun _ => .fine .all))

instance : Makes x g.optionalArguments Fine := by
  unfold optionalArguments
  exact .free fun _ => .ask (.seq fun _ => .seq fun _ => .fine .all) (.fine .all)

instance : Makes x g.annotationBody Fine := by
  unfold annotationBody
  exact .start fun _ => .seq fun _ => .seq fun _ => .seq fun _ => .node rfl .all trivial

/-- The parts of an annotation may stand anywhere, just as the annotation itself. -/
theorem plain_of_annotationUse {a : Node .annotationUse} (h : Fine a) :
    ∀ q ∈ a.inner.parts, q.Plain := by
  intro q hq
  cases a with
  | located tree span source =>
    cases tree with
    | annotationUse name arguments => exact h.plain.kept.plain_of_mem_children hq rfl rfl rfl

/-- A modifier that is a word can be made a node. -/
theorem ready_of_parts_eq_nil {tree : Tree .modifier} (h : tree.parts = []) : tree.Ready := by
  refine .of_isOrdinary ?_ ?_ ?_
  · cases tree <;> rfl
  · rw [h]
    exact nofun
  · cases tree <;> trivial

instance : Makes x sealing? fun found => ∀ tree ∈ found, tree.Ready := by
  unfold sealing?
  have hsome {n : Nat} (tree : Tree .modifier) (h : tree.parts = []) :
      Builds x n [] (pure (some tree)) fun found => ∀ tree ∈ found, tree.Ready :=
    .found fun _ => ready_of_parts_eq_nil h
  have hnon (n : Nat) : Builds x n [] (atNonSealed >>= fun found => if found = true then
      Parser.advance >>= fun _ => Parser.advance >>= fun _ => Parser.advance >>= fun _ =>
        pure (some Tree.nonSealedModifier) else pure none)
      fun found => ∀ tree ∈ found, tree.Ready :=
    .ask (.seq fun _ => .seq fun _ => .seq fun _ => hsome _ rfl) .notFound
  refine .free fun n => .ask (.seq fun kind => .cases (fun _ => ?_) fun _ => ?_) (hnon n)
  · exact .seq fun _ => hsome _ rfl
  · exact hnon n

instance : Makes x g.modifier? fun found => ∀ tree ∈ found, tree.Ready := by
  unfold modifier?
  refine .free fun _ => .keep fun kind _ => ?_
  split
  · refine .ask (.keep fun a ha => .found fun _ => ?_) .notFound
    exact .of_isOrdinary rfl (plain_of_annotationUse ha) trivial
  · exact .ask (.seq fun _ => .found fun _ => ready_of_parts_eq_nil rfl) .notFound
  · exact .of_makes
  · exact .notFound

instance : Makes x g.modifiers Fine := .fine (by
  unfold modifiers
  have hitem : Makes x (position >>= fun start => g.modifier? >>= fun found =>
      match found with
      | some tree => node start tree >>= fun a => pure (some a)
      | none => pure none) fun found => ∀ a ∈ found, Fine a := by
    refine .start fun n => .keep fun found hfound => ?_
    cases found with
    | none => exact .notFound
    | some tree =>
      exact .bind (.nodeOf (fun _ => hfound tree rfl) (by cases tree <;> rfl)) fun a ha =>
        .found fun _ => ha
  infer_instance)

/-! ### Types -/

/-- Types that may be arguments. -/
def Arguments (types : List (Node .type)) : Prop := ∀ a ∈ types, Part.Argument ⟨.type, a⟩

/-- The nodes in arguments may stand in arguments. -/
theorem Arguments.of_mem_parts {types : List (Node .type)} (h : Arguments types) :
    ∀ q ∈ (Tree.ofList types).parts, q.Argument := by
  intro q hq
  rw [Tree.parts_ofList, List.mem_flatMap] at hq
  obtain ⟨a, ha, hq⟩ := hq
  exact Tree.forall_mem_parts_node (h a ha) q hq

instance : Makes x g.wildcardBound? fun found => ∀ bound ∈ found, Fine bound := by
  unfold wildcardBound?
  have hsome {n : Nat} {bound : Node .type → Tree .wildcardBound}
      (h : ∀ a, (bound a).parts = a.parts) :
      Builds x n [] (g.type >>= fun a => pure (some (bound a)))
        fun found => ∀ bound ∈ found, Fine bound := by
    refine .keep fun a ha => .found fun _ q hq => ?_
    change q ∈ (bound a).parts at hq
    rw [h] at hq
    exact ha q hq
  exact .free fun _ => .ask (hsome fun _ => rfl) (.ask (hsome fun _ => rfl) .notFound)

/-- Only here is a wildcard made. -/
instance : Makes x g.typeArgument fun a => Part.Argument ⟨.type, a⟩ := by
  unfold typeArgument
  refine .start fun _ => .seq fun annotations => .ask (.seq fun bound => ?_)
    (.goBack (.mono .of_makes fun a ha => ha.plain.toArgument))
  refine .mono (.nodeKept fun hG => .of_plain hG trivial rfl (by rintro _ ⟨⟩) rfl) ?_
  rintro a ⟨hkept, hinner⟩
  refine ⟨hkept, ?_, ?_⟩
  · change a.inner.needsMinus = false
    rw [hinner]
    rfl
  · change a.inner.isRestricted = false
    rw [hinner]
    rfl

instance : Makes x g.typeArguments Arguments := by
  unfold typeArguments
  exact .free fun _ => .seq fun _ => .closing (fun _ => .pure fun _ => List.forall_mem_nil _)
    (.keep fun arguments harguments => .seq fun _ => .pure fun _ => harguments.2)

instance : Makes x g.typeArguments? fun found => ∀ types ∈ found, Arguments types := by
  unfold typeArguments?
  infer_instance

instance : Makes x g.typeArgumentsOrNone Arguments := by
  unfold typeArgumentsOrNone
  refine .free fun _ => .keep fun found hfound => .pure fun _ => ?_
  cases found with
  | none => exact nofun
  | some types => exact hfound types rfl

/-- The arguments of a segment are the only nodes in it that may be wildcards. -/
theorem placed_segment {annotations : List (Node .annotationUse)} {name : String}
    {found : Option (List (Node .type))} (hannotations : Fine annotations)
    (hfound : ∀ types ∈ found, Arguments types) :
    (Tree.classTypeSegment (.ofList annotations) name (.ofOption (found.map .ofList))).Placed := by
  constructor
  · intro q hq
    rcases List.mem_append.mp hq with hq | hq
    · exact (hannotations q hq).toArgument
    · cases found with
      | none => cases hq
      | some types => exact (hfound types rfl).of_mem_parts q hq
  · intro q hq
    rcases List.mem_append.mp hq with hq | hq
    · exact (hannotations q hq).isWildcard_eq
    · cases hq

/-- The segments of a class type that were read, and the token of the last name. -/
def Segments (last : Token) (segments : List (Tree .classTypeSegment)) : Prop :=
  segments.getLast?.map Tree.segmentName = some last.source ∧ ∀ s ∈ segments, s.Placed

/-- One more segment was read. -/
theorem Segments.concat {last token : Token} {segments : List (Tree .classTypeSegment)}
    {segment : Tree .classTypeSegment} (h : Segments last segments) (hsegment : segment.Placed)
    (hname : segment.segmentName = token.source) : Segments token (segments ++ [segment]) := by
  refine ⟨?_, ?_⟩
  · rw [List.getLast?_concat, Option.map_some, hname]
  · intro s hs
    rcases List.mem_append.mp hs with hs | hs
    · exact h.2 s hs
    · rw [List.mem_singleton.mp hs]
      exact hsegment

/-- Segments that were read make a class type that may stand anywhere. -/
theorem Segments.ready {last : Token} {segments : List (Tree .classTypeSegment)}
    (h : Segments last segments) : (Tree.classType (.ofList segments)).Ready where
  arguments := (Tree.Placed.ofList h.2).arguments
  exposed := (Tree.Placed.ofList h.2).exposed
  wellFormed := by
    cases segments with
    | nil => cases h.1
    | cons => rfl
  genuine := by rintro _ ⟨⟩
  unrestricted := by rintro _ ⟨⟩

/-- A class type is restricted only by the name of its last segment. -/
theorem Segments.isRestricted_eq {last : Token} {segments : List (Tree .classTypeSegment)}
    (h : Segments last segments) (hlast : isRestrictedTypeName last.source = false) :
    (Tree.classType (.ofList segments)).isRestricted = false := by
  have hname : (Tree.classType (.ofList segments)).lastName? = some last.source := by
    change ((Tree.ofList segments).toList.map Tree.segmentName).getLast? = _
    rw [Tree.toList_ofList, List.getLast?_map]
    exact h.1
  rw [Tree.isRestricted, hname]
  exact hlast

/-- A class type may stand anywhere, and is no array. -/
theorem builds_classTypeFrom (n start : Nat) (annotations : List (Node .annotationUse)) :
    Builds x n (pieces annotations) (g.classTypeFrom start annotations)
      fun a => Fine a ∧ a.inner.isArrayType = false := by
  unfold classTypeFrom
  simp only [segment, bind_assoc, pure_bind]
  refine .identifier fun first => .keep fun arguments harguments => .known fun hannotations =>
    .bind (Q := fun found => Segments found.1 found.2)
      (.loop (fun found => Segments found.1 found.2.reverse) ?_ ?_) ?_
  · refine ⟨rfl, ?_⟩
    simpa using placed_segment hannotations harguments
  · rintro ⟨last, segments⟩ hsegments
    refine .ask (.seq fun _ => .keep fun annotations hannotations => .identifier fun token =>
      .keep fun arguments harguments => .pure fun _ => ?_) (.pure fun _ => hsegments)
    change Segments token (_ :: segments).reverse
    rw [List.reverse_cons]
    exact hsegments.concat (placed_segment hannotations harguments) rfl
  · rintro ⟨last, segments⟩ hsegments
    refine .cases (fun _ => .fail) fun hlast => .mono (.nodeInner (fun _ => hsegments.ready) ?_) ?_
    · rw [Tree.isConfined, hsegments.isRestricted_eq (by simpa using hlast)]
      rfl
    · rintro a ⟨ha, hinner⟩
      rw [hinner]
      exact ⟨ha, rfl⟩

instance : Makes x g.classType Fine := by
  unfold classType
  exact .start fun n => .seq fun annotations =>
    .weaken (.mono (builds_classTypeFrom n n annotations) fun _ => And.left) .all

instance : Makes x g.classTypeList Fine := .fine (by
  unfold classTypeList
  infer_instance)

/-- A type without its dimensions is no array. -/
instance (allowVar : Bool) :
    Makes x (g.elementType allowVar) fun a => Fine a ∧ a.inner.isArrayType = false := by
  unfold elementType
  refine .start fun n => .seq fun annotations => .seq fun found => ?_
  have hclass := builds_classTypeFrom (x := x) (g := g) n n annotations
  have hnode {G : List (List Part)} {tree : Tree .type} (hready : (∀ q ∈ Part.join G, q.Plain) →
      tree.Ready) (hconfined : tree.isConfined = false) (harray : tree.isArrayType = false) :
      Builds x n G (node n tree) fun a => Fine a ∧ a.inner.isArrayType = false := by
    refine .mono (.nodeInner hready hconfined) ?_
    rintro a ⟨ha, hinner⟩
    exact ⟨ha, hinner ▸ harray⟩
  cases found with
  | some primitive =>
    exact .seq fun _ => hnode (fun hG => .of_isOrdinary rfl hG trivial) rfl rfl
  | none =>
    refine .cases (fun _ => .ask (.seq fun _ => ?_) (hclass.weaken .all))
      fun _ => hclass.weaken .all
    exact hnode (fun _ => .of_isOrdinary rfl nofun trivial) rfl rfl

instance : Makes x g.dimension? fun found => ∀ dimension ∈ found, Fine dimension := by
  unfold dimension?
  exact .free fun _ => .ask (.start fun n => .keep fun annotations hannotations =>
    .ask (.seq fun _ => .seq fun _ => .found fun _ => hannotations) (.goBack .notFound)) .notFound

instance : Makes x g.typeBody Fine := by
  unfold typeBody
  refine .start fun _ => .seqWith fun element helement => .seq fun dimensions => ?_
  cases dimensions with
  | nil => exact .fine fun _ hq => List.mem_append_left _ hq
  | cons d ds => exact .node rfl .all ⟨rfl, helement.2⟩

instance : Makes x g.resultType Fine := by
  unfold resultType
  exact .free fun _ => .ask (.start fun _ => .seq fun _ => .node rfl .all trivial) .of_makes

instance : Makes x g.catchTypes fun types => types ≠ [] ∧ ∀ a ∈ types, Fine a := by
  unfold catchTypes
  infer_instance

instance : Makes x g.castType Fine := by
  unfold castType
  refine .start fun n => .seq fun first => .seq fun others => ?_
  cases others with
  | nil => exact .fine fun _ hq => List.mem_append_left _ hq
  | cons second others => exact .node rfl .all (Nat.le_add_left _ _)

instance : Makes x g.typeBounds Fine := by
  unfold typeBounds
  exact .free fun _ => .ask .deliver (.fine .all)

instance : Makes x g.typeParameter Fine := by
  unfold typeParameter
  exact .start fun _ => .seq fun _ => .seqWith fun name hname => .seq fun _ =>
    .nodeOf (fun hG => .of_declaredType? rfl hname hG trivial) rfl

instance : Makes x g.typeParameters Fine := by
  unfold typeParameters
  exact .free fun _ => .ask (.seq fun _ => .seq fun _ => .fine .all) (.fine .all)

/-! ### Patterns -/

instance : Makes x g.patternComponents Fine := by
  unfold patternComponents
  simp only [pure_bind]
  exact .free fun _ => .ask (.seq fun _ => .fine .all) (.seq fun _ => .seq fun _ => .fine .all)

instance : Makes x g.patternBody Fine := by
  unfold patternBody
  refine .start fun n => .ask (.seq fun _ => .node rfl .all trivial)
    (.seq fun modifiers => .seq fun type => ?_)
  have htype : Builds x n [(Tree.ofList modifiers).parts, type.parts]
      (expectIdentifier >>= fun name =>
        node n (.typePattern (.ofList modifiers) type name)) Fine :=
    .seq fun _ => .node rfl .all trivial
  refine .cases (fun hempty => .ask (.seq fun components => .node rfl ?_ trivial)
    (htype.weaken .all)) fun _ => htype.weaken .all
  obtain rfl : modifiers = [] := by simpa using hempty
  exact .all

/-! ### Variables -/

instance : Makes x g.arguments Fine := by
  unfold arguments
  simp only [pure_bind]
  exact .free fun _ => .seq fun _ => .withLambdas
    (.ask (.seq fun _ => .fine .all) (.seq fun _ => .seq fun _ => .fine .all))

instance : Makes x g.variableInitializer Fine := by
  unfold variableInitializer
  exact .free fun _ => .ask .of_makes .of_makes

instance : Makes x g.arrayInitializerBody Fine := by
  unfold arrayInitializerBody
  exact .start fun _ => .seq fun _ => .seq fun _ => .seq fun _ => .node rfl .all trivial

instance : Makes x g.variableDeclarator Fine := by
  unfold variableDeclarator
  exact .start fun _ => .seq fun _ => .seq fun _ => .seq fun _ => .node rfl .all trivial

instance : Makes x g.variableDeclarators fun declarators =>
    declarators ≠ [] ∧ ∀ a ∈ declarators, Fine a := by
  unfold variableDeclarators
  infer_instance

/-- The declaration of a local variable may stand anywhere, as a statement or as a part of one. -/
theorem builds_localVariable (n : Nat) (modifiers : List (Node .modifier)) :
    Builds x n (pieces modifiers) (g.localVariable modifiers)
      fun tree => Fine tree ∧ tree.WellFormed := by
  unfold localVariable
  exact .seq fun _ => .seqWith fun declarators hdeclarators => .pure fun hG =>
    ⟨hG, Tree.isEmpty_ofList_of_ne_nil hdeclarators.1⟩

/-- Only the first parameter can be a receiver. -/
instance (isFirst : Bool) : Makes x (g.parameter isFirst) fun a =>
    Fine a ∧ (isFirst = false → a.inner.isReceiver = false) := by
  unfold parameter
  refine .start fun n => .seq fun modifiers => .seq fun type => .seq fun varargs => ?_
  have hplain : Builds x n [(Tree.ofList modifiers).parts, type.parts]
      (expectIdentifier >>= fun name => emptyDimensions >>= fun dimensions =>
        node n (.parameter (.ofList modifiers) type varargs name dimensions false))
      fun a => Fine a ∧ (isFirst = false → a.inner.isReceiver = false) := by
    refine .seq fun name => .seq fun dimensions => .mono (.nodeInner (fun hG => ?_) rfl) ?_
    · exact .of_isOrdinary rfl hG fun hreceiver => absurd hreceiver Bool.false_ne_true
    · rintro a ⟨ha, hinner⟩
      rw [hinner]
      exact ⟨ha, fun _ => rfl⟩
  cases varargs with
  | true => exact hplain.weaken .all
  | false =>
    refine .ask (.cases (fun _ => .seq fun _ => .fail) fun hfirst => ?_) (hplain.weaken .all)
    refine .seq fun name => .mono (.nodeInner (fun hG => ?_) rfl) ?_
    · exact .of_isOrdinary rfl hG fun _ => ⟨rfl, rfl⟩
    · rintro a ⟨ha, -⟩
      exact ⟨ha, fun h => absurd (by simp [h]) hfirst⟩

instance : Makes x g.parameterList fun parameters =>
    Fine parameters ∧ (Tree.ofList parameters).ReceiverFirst := by
  unfold parameterList
  refine .free fun _ => .ask (.pure fun _ => ⟨nofun, nofun⟩)
    (.seqWith fun first hfirst => .seqWith fun others hothers => .pure fun hG => ⟨hG, ?_⟩)
  intro p hp
  rw [Tree.toList_ofList] at hp
  exact (hothers p hp).2 rfl

instance : Makes x g.formalParameters fun parameters =>
    Fine parameters ∧ (Tree.ofList parameters).ReceiverFirst := by
  unfold formalParameters
  exact .free fun _ => .seq fun _ => .keep fun parameters hparameters => .seq fun _ =>
    .pure fun _ => hparameters

end Grammar

end JavaSyntax
