import JavaSyntax.Proofs.Grammar.Progress
import JavaSyntax.Proofs.Syntax.EchoAhead

/-!
# Types and what they need echo each other

Given a record of productions that echo each other, every builder of the grammar does: one
instance for each of them, found from its own definition and the instances before it. Where a
builder raises an error at a token that it has kept, the instance says why that token is not
the end of the text. This file goes from names and literals to types, patterns, variables and
arguments.
-/

set_option synthInstance.maxSize 16384

namespace JavaSyntax

open JavaSyntax.Parser Work Mirror

/-- The guarded productions of a record echo each other. -/
class Grammar.Echoing (M : Mirror) (g : Grammar) : Prop where
  annotationUse : ∀ n, M.Echoes n g.annotationUse g.annotationUse
  elementArray : ∀ n, M.Echoes n g.elementArray g.elementArray
  type : ∀ n, M.Echoes n g.type g.type
  creationType : ∀ n, M.Echoes n g.creationType g.creationType
  expression : ∀ n, M.Echoes n g.expression g.expression
  conditional : ∀ n, M.Echoes n g.conditional g.conditional
  unary : ∀ n, M.Echoes n g.unary g.unary
  pattern : ∀ n, M.Echoes n g.pattern g.pattern
  arrayInitializer : ∀ n, M.Echoes n g.arrayInitializer g.arrayInitializer
  switchBody : ∀ n, M.Echoes n g.switchBody g.switchBody
  block : ∀ n, M.Echoes n g.block g.block
  statement : ∀ n, M.Echoes n g.statement g.statement
  typeDeclaration : ∀ n start {a b : List (Node .modifier)}, M.Like a b →
    M.Echoes n (g.typeDeclaration start a) (g.typeDeclaration start b)
  classBody : ∀ n className, M.Echoes n (g.classBody className) (g.classBody className)

namespace Grammar

variable {M : Mirror} {n : Nat} {g : Grammar} [g.Productive] [g.Striding] [hg : g.Echoing M]

instance : M.Echoes n g.annotationUse g.annotationUse := hg.annotationUse n

instance : M.Echoes n g.elementArray g.elementArray := hg.elementArray n

instance : M.Echoes n g.type g.type := hg.type n

instance : M.Echoes n g.creationType g.creationType := hg.creationType n

instance : M.Echoes n g.expression g.expression := hg.expression n

instance : M.Echoes n g.conditional g.conditional := hg.conditional n

instance : M.Echoes n g.unary g.unary := hg.unary n

instance : M.Echoes n g.pattern g.pattern := hg.pattern n

instance : M.Echoes n g.arrayInitializer g.arrayInitializer := hg.arrayInitializer n

instance : M.Echoes n g.switchBody g.switchBody := hg.switchBody n

instance : M.Echoes n g.block g.block := hg.block n

instance : M.Echoes n g.statement g.statement := hg.statement n

instance (start : Nat) (a b : List (Node .modifier)) [h : M.Alike a b] :
    M.Echoes n (g.typeDeclaration start a) (g.typeDeclaration start b) :=
  hg.typeDeclaration n start h.like

instance (className : Option String) :
    M.Echoes n (g.classBody className) (g.classBody className) := hg.classBody n className

/-! ### Names, literals and brackets -/

instance (first second : TokenKind) :
    M.Echoes n (Parser.checkPair first second) (Parser.checkPair first second) := by
  unfold Parser.checkPair
  infer_instance

instance : M.Echoes n qualifiedName qualifiedName := by unfold qualifiedName; infer_instance

instance : M.Echoes n identifierList identifierList := by unfold identifierList; infer_instance

/-- A literal that needs a minus sign is not the end of the text. -/
theorem isEnd_of_needsMinus {t : Token} (h : needsMinus t = true) : t.isEnd = false := by
  unfold needsMinus at h
  split at h
  · rename_i hkind
    rw [Token.isEnd, hkind]
    rfl
  · rename_i hkind
    rw [Token.isEnd, hkind]
    rfl
  · cases h

instance (t u : Token) [h : M.Alike t u] : M.Alike (needsMinus t) (needsMinus u) where
  like := by
    have hkind : t.kind = u.kind := (inferInstance : M.Alike t.kind u.kind).eq
    have hvalue : t.value = u.value := (inferInstance : M.Alike t.value u.value).eq
    change needsMinus t = needsMinus u
    rw [needsMinus, needsMinus, hkind, hvalue]

instance (negated : Bool) : M.Echoes n (literal negated) (literal negated) := by
  unfold literal
  refine Echoes.seqPlain inferInstance fun kind => ?_
  split
  · infer_instance
  · refine Echoes.seq inferInstance fun r => Echoes.ite inferInstance (fun hminus => ?_) fun _ => ?_
    · have hopen := isEnd_of_needsMinus (Bool.and_eq_true_iff.mp hminus).2
      exact Echoes.throwingThen (.broken .literalRange r.like hopen)
    · infer_instance

instance : M.Echoes n emptyDimensions emptyDimensions := by unfold emptyDimensions; infer_instance

instance : M.Echoes n expectClosingAngle expectClosingAngle := by
  unfold expectClosingAngle
  infer_instance

/-- The tokens of `non-sealed` are found again where the three questions about them found them. -/
theorem exists_atNonSealed {s₀ s₁ s₂ s₃ : ParserState} (hs : s₀.cursor.Settled)
    (hnon : checkWord "non" s₀ = (.ok true, s₁)) (hminus : peekKind 1 s₁ = (.ok .minus, s₂))
    (hsealed : peekIsWord 2 "sealed" s₂ = (.ok true, s₃)) :
    ∃ t₁ t₂ t₃, s₃.cursor.AtNonSealed t₁ t₂ t₃ ∧
      (peek 0 >>= fun first => peek 1 >>= fun second => peek 2 >>= fun third =>
        pure (areAdjacent first second third)) s₃ = (.ok (areAdjacent t₁ t₂ t₃), s₃) := by
  obtain ⟨t₁, u₁, hpeek₁, hpure₁⟩ := bind_eq_ok hnon
  obtain ⟨t₂, u₂, hpeek₂, hpure₂⟩ := bind_eq_ok hminus
  obtain ⟨t₃, u₃, hpeek₃, hpure₃⟩ := bind_eq_ok hsealed
  obtain ⟨hword₁, hstate₁⟩ := Prod.mk.inj hpure₁
  obtain ⟨hkind₂, hstate₂⟩ := Prod.mk.inj hpure₂
  obtain ⟨hword₃, hstate₃⟩ := Prod.mk.inj hpure₃
  subst hstate₁ hstate₂ hstate₃
  have hfirst := peek_eq_ok hpeek₁
  have hsecond := peek_eq_ok hpeek₂
  have hthird := peek_eq_ok hpeek₃
  obtain ⟨⟨hcourse₁, -⟩, hfound₁⟩ := hs.peekAhead 0
  obtain ⟨hposition₁, hget₁⟩ := hfound₁ _ _ hfirst
  rw [hfirst] at hcourse₁
  obtain ⟨⟨hcourse₂, -⟩, hfound₂⟩ := hcourse₁.settled.peekAhead 1
  obtain ⟨hposition₂, hget₂⟩ := hfound₂ _ _ hsecond
  rw [hsecond] at hcourse₂
  obtain ⟨hposition₃, hget₃⟩ := (hcourse₂.settled.peekAhead 2).2 _ _ hthird
  have hisWord₁ : t₁.isWord "non" = true := Except.ok.inj hword₁
  have hminus₂ : t₂.kind = .minus := Except.ok.inj hkind₂
  have hisWord₃ : t₃.isWord "sealed" = true := Except.ok.inj hword₃
  have hopen {word : String} {t : Token} (h : t.isWord word = true) : t.isEnd = false := by
    have hkind := eq_of_beq (Bool.and_eq_true_iff.mp h).1
    rw [Token.isEnd, hkind]
    rfl
  have hat : u₃.cursor.AtNonSealed t₁ t₂ t₃ := by
    refine ⟨?_, ?_, ?_, hisWord₁, hminus₂, hisWord₃⟩
    · rw [hposition₃, hposition₂, hposition₁]
      exact Cursor.getElem?_of_peekAhead hthird
        (Cursor.getElem?_of_peekAhead hsecond (hget₁ (hopen hisWord₁)))
    · rw [hposition₃, hposition₂]
      exact Cursor.getElem?_of_peekAhead hthird (hget₂ (by rw [Token.isEnd, hminus₂]; rfl))
    · rw [hposition₃]
      exact hget₃ (hopen hisWord₃)
  refine ⟨t₁, t₂, t₃, hat, ?_⟩
  have hagain {k : Nat} {t : Token} (h : u₃.cursor.buffer[u₃.cursor.position + k]? = some t) :
      peek k u₃ = (.ok t, u₃) := by
    rw [peek, read_apply, Cursor.peekAhead_of_getElem? h]
    rfl
  rw [bind_apply, hagain hat.first_eq]
  dsimp only
  rw [bind_apply, hagain hat.second_eq]
  dsimp only
  rw [bind_apply, hagain hat.third_eq]
  rfl

instance : M.Echoes n atNonSealed atNonSealed where
  ends {s t} hst hn := by
    have hsettled := M.within hst.cursor
    have hnon : M.Echoes n (checkWord "non") (checkWord "non") := inferInstance
    have hminus : M.Echoes n (peekKind 1) (peekKind 1) := inferInstance
    have hsealed : M.Echoes n (peekIsWord 2 "sealed") (peekIsWord 2 "sealed") := inferInstance
    unfold atNonSealed
    refine Echoes.ends_bind (hnon.ends hst hn) fun {a _ _ _} hs₁ ht₁ hlike hst₁ hn₁ => ?_
    obtain rfl := hlike
    cases a with
    | false => exact .ok rfl hst₁ hn₁
    | true =>
      refine Echoes.ends_bind (hminus.ends hst₁ hn₁) fun {kind _ _ _} hs₂ ht₂ hlike hst₂ hn₂ => ?_
      obtain rfl := hlike
      by_cases hkind : kind = .minus
      · subst hkind
        refine Echoes.ends_bind (hsealed.ends hst₂ hn₂)
          fun {a _ s₃ t₃} hs₃ ht₃ hlike hst₃ hn₃ => ?_
        obtain rfl := hlike
        cases a with
        | false => exact .ok rfl hst₃ hn₃
        | true =>
          obtain ⟨_, _, _, hat, hrun⟩ := exists_atNonSealed hsettled.1.settled hs₁ hs₂ hs₃
          obtain ⟨_, _, _, hat', hrun'⟩ := exists_atNonSealed hsettled.2.settled ht₁ ht₂ ht₃
          change M.Ends n ((peek 0 >>= _) s₃) ((peek 0 >>= _) t₃)
          rw [hrun, hrun', M.areAdjacent_eq hst₃.cursor hat hat']
          exact .ok rfl hst₃ hn₃
      · have hne : (kind != .minus) = true := bne_iff_ne.mpr hkind
        rw [if_pos hne]
        exact .ok rfl hst₂ hn₂

/-! ### Modifiers -/

instance : M.Echoes n Parser.atAnnotation Parser.atAnnotation := by
  unfold Parser.atAnnotation
  infer_instance

instance : M.Echoes n g.annotations g.annotations := by unfold annotations; infer_instance

instance : M.Echoes n g.elementValue g.elementValue := by
  unfold elementValue
  refine Echoes.seqPlain inferInstance fun kind => ?_
  split <;> infer_instance

instance : M.Echoes n g.elementArrayBody g.elementArrayBody := by
  unfold elementArrayBody
  infer_instance

instance : M.Echoes n g.elementValuePair g.elementValuePair := by
  unfold elementValuePair
  infer_instance

instance : M.Echoes n g.annotationArguments g.annotationArguments := by
  unfold annotationArguments
  infer_instance

instance : M.Echoes n g.optionalArguments g.optionalArguments := by
  unfold optionalArguments
  infer_instance

instance : M.Echoes n g.annotationBody g.annotationBody := by
  unfold annotationBody
  infer_instance

instance : M.Echoes n sealing? sealing? := by unfold sealing?; infer_instance

instance (keyword : Keyword) : M.Echoes n (isModifierHere keyword) (isModifierHere keyword) := by
  unfold isModifierHere
  split <;> infer_instance

instance : M.Echoes n g.modifier? g.modifier? := by
  unfold modifier?
  refine Echoes.seqPlain inferInstance fun kind => ?_
  split <;> infer_instance

instance : M.Echoes n g.modifiers g.modifiers := by
  have hitem (k : Nat) : M.Echoes k (position >>= fun start => g.modifier? >>= fun
      | some tree => node start tree >>= fun a => pure (some a)
      | none => pure none) (position >>= fun start => g.modifier? >>= fun
      | some tree => node start tree >>= fun a => pure (some a)
      | none => pure none) := by
    refine Echoes.marking fun start => Echoes.seq inferInstance fun r => ?_
    obtain ⟨_, _, hlike⟩ := r
    cases hlike with
    | some h =>
      have : M.Alike _ _ := ⟨h⟩
      dsimp only
      infer_instance
    | none => infer_instance
  have hstrides (k : Nat) : Strides k (·.isSome = true) (position >>= fun start =>
      g.modifier? >>= fun
        | some tree => node start tree >>= fun a => pure (some a)
        | none => pure none) := by
    have hfound (start k : Nat) : Strides k (·.isSome = true) (g.modifier? >>= fun
        | some tree => node start tree >>= fun a => pure (some a)
        | none => pure none) :=
      .found inferInstance (fun _ => inferInstance) inferInstance
    infer_instance
  unfold modifiers
  infer_instance

/-! ### Types -/

instance : M.Echoes n Grammar.atSegment Grammar.atSegment := by
  unfold Grammar.atSegment
  infer_instance

instance : M.Echoes n g.wildcardBound? g.wildcardBound? := by unfold wildcardBound?; infer_instance

instance : M.Echoes n g.typeArgument g.typeArgument := by unfold typeArgument; infer_instance

instance : M.Echoes n g.typeArguments g.typeArguments := by unfold typeArguments; infer_instance

instance : M.Echoes n g.typeArguments? g.typeArguments? := by unfold typeArguments?; infer_instance

instance : M.Echoes n g.typeArgumentsOrNone g.typeArgumentsOrNone := by
  unfold typeArgumentsOrNone
  infer_instance

instance (a b : List (Node .annotationUse)) [M.Alike a b] :
    M.Echoes n (g.segment a) (g.segment b) := by
  unfold segment
  infer_instance

instance (start : Nat) (a b : List (Node .annotationUse)) [M.Alike a b] :
    M.Echoes n (g.classTypeFrom start a) (g.classTypeFrom start b) := by
  unfold classTypeFrom
  refine Echoes.seq inferInstance fun first => Echoes.seq inferInstance fun segment => ?_
  have hstart : M.Like (first.left, [segment.left]) (first.right, [segment.right]) :=
    ⟨first.like, .cons segment.like .nil⟩
  refine Echoes.seqPair (Echoes.looping (fun k r => ?_) (fun k x => ?_) hstart)
    fun last segments => ?_
  · obtain ⟨⟨last, segments⟩, ⟨last', segments'⟩, hlast, hsegments⟩ := r
    have : M.Alike last last' := ⟨hlast⟩
    have : M.Alike segments segments' := ⟨hsegments⟩
    infer_instance
  · obtain ⟨last, segments⟩ := x
    infer_instance
  · refine Echoes.ite inferInstance (fun _ => Echoes.throwingThen (.restricted last.like))
      fun _ => ?_
    infer_instance

instance : M.Echoes n g.classType g.classType := by unfold classType; infer_instance

instance : M.Echoes n g.classTypeList g.classTypeList := by unfold classTypeList; infer_instance

instance : M.Echoes n primitive? primitive? := by
  unfold primitive?
  refine Echoes.seqPlain inferInstance fun kind => ?_
  split <;> infer_instance

instance : M.Echoes n atVar atVar := by unfold atVar; infer_instance

instance (allowVar : Bool) : M.Echoes n (g.elementType allowVar) (g.elementType allowVar) := by
  unfold elementType
  refine Echoes.marking fun start => Echoes.seq inferInstance fun r =>
    Echoes.seqPlain inferInstance fun found => ?_
  split <;> infer_instance

instance : M.Echoes n atDimension atDimension := by unfold atDimension; infer_instance

instance : M.Echoes n g.dimension? g.dimension? := by unfold dimension?; infer_instance

instance : M.Echoes n g.typeBody g.typeBody := by unfold typeBody; infer_instance

instance : M.Echoes n g.resultType g.resultType := by unfold resultType; infer_instance

instance : M.Echoes n g.catchTypes g.catchTypes := by unfold catchTypes; infer_instance

instance : M.Echoes n g.castType g.castType := by unfold castType; infer_instance

instance : M.Echoes n g.typeBounds g.typeBounds := by unfold typeBounds; infer_instance

instance : M.Echoes n g.typeParameter g.typeParameter := by unfold typeParameter; infer_instance

instance : M.Echoes n g.typeParameters g.typeParameters := by unfold typeParameters; infer_instance

/-! ### Patterns -/

instance : M.Echoes n atUnnamed atUnnamed := by unfold atUnnamed; infer_instance

instance : M.Echoes n g.patternComponents g.patternComponents := by
  unfold patternComponents
  infer_instance

instance : M.Echoes n g.patternBody g.patternBody := by unfold patternBody; infer_instance

/-! ### Variables -/

instance : M.Echoes n g.arguments g.arguments := by unfold arguments; infer_instance

instance : M.Echoes n g.variableInitializer g.variableInitializer := by
  unfold variableInitializer
  infer_instance

instance : M.Echoes n g.arrayInitializerBody g.arrayInitializerBody := by
  unfold arrayInitializerBody
  infer_instance

instance : M.Echoes n g.variableDeclarator g.variableDeclarator := by
  unfold variableDeclarator
  infer_instance

instance : M.Echoes n g.variableDeclarators g.variableDeclarators := by
  unfold variableDeclarators
  infer_instance

instance (a b : List (Node .modifier)) [M.Alike a b] :
    M.Echoes n (g.localVariable a) (g.localVariable b) := by
  unfold localVariable
  infer_instance

instance : M.Echoes n atReceiver atReceiver := by unfold atReceiver; infer_instance

instance : Sights atReceiver := by unfold atReceiver; infer_instance

instance : M.Echoes n receiverName receiverName := by unfold receiverName; infer_instance

instance (isFirst : Bool) : M.Echoes n (g.parameter isFirst) (g.parameter isFirst) := by
  unfold parameter
  refine Echoes.marking fun start => Echoes.seq inferInstance fun modifiers =>
    Echoes.seq inferInstance fun type => Echoes.seqPlain inferInstance fun varargs => ?_
  refine Echoes.ite inferInstance (fun _ => ?_) fun _ => inferInstance
  refine Echoes.sighting inferInstance (fun hst hopen hn => ?_) inferInstance
  dsimp only
  split
  · exact Echoes.ends_broken .receiverFirst hst hopen hn
  · have hreceiver : M.Echoes start
        (receiverName >>= fun name => node start
          ((Tree.ofList modifiers.left).parameter type.left false name 0 true))
        (receiverName >>= fun name => node start
          ((Tree.ofList modifiers.right).parameter type.right false name 0 true)) := inferInstance
    exact hreceiver.ends hst hn

instance : M.Echoes n g.parameterList g.parameterList := by unfold parameterList; infer_instance

instance : M.Echoes n g.formalParameters g.formalParameters := by
  unfold formalParameters
  infer_instance

end Grammar

end JavaSyntax
