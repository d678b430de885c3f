import JavaSyntax.Proofs.Grammar.Progress

/-!
# Nodes are never empty

Every production that reads a node other than a whole compilation unit passes a token. A name, a
literal or a bracket is demanded on every way through such a production, or a token is taken
that was seen before; everything else rests on the productions that are nested in it.
-/

set_option synthInstance.maxSize 4096

namespace JavaSyntax

open JavaSyntax.Parser Work

/-! ### More tokens, and looks at the state -/

namespace TokenKind

instance : Proper .rightParen := ⟨by decide⟩

instance : Proper .rightBracket := ⟨by decide⟩

instance : Proper .rightBrace := ⟨by decide⟩

instance : Proper .question := ⟨by decide⟩

instance : Proper .nullLiteral := ⟨by decide⟩

end TokenKind

instance : Keeps position where
  keeps hs hrun := by
    cases hrun
    exact ⟨.refl hs (Nat.le_refl _), rfl⟩

instance : Keeps (get : Parser ParserState) where
  keeps hs hrun := by
    cases hrun
    exact ⟨.refl hs (Nat.le_refl _), rfl⟩

namespace Strides

variable {α β : Type} {n : Nat} {P : α → Prop} {Q : β → Prop} {p : Parser α} {f : α → Parser β}

/-- A look at what comes next does not go back. -/
instance (priority := low) [hp : Keeps p] : Onward n p where
  strides hs hn hrun := by
    obtain ⟨hcourse, -⟩ := hp.keeps hs hrun
    exact ⟨hcourse.mono hn, nofun⟩

/-- To ask for the position passes nothing, and it is known from then on. -/
theorem fromPosition {f : Nat → Parser β} (hf : ∀ n, Strides n Q (f n)) :
    Strides n Q (position >>= f) := inferInstance

/-- What comes after a part whose result can show that a token was passed. -/
theorem shown (hp : Strides n P p) (hpassed : ∀ a, P a → Onward (n + 1) (f a))
    (hnot : ∀ a, ¬ P a → Strides n Q (f a)) : Strides n Q (p >>= f) where
  strides hs hn hrun := by
    obtain ⟨a, t, hpa, hfa⟩ := bind_eq_ok hrun
    obtain ⟨hcourse, hlt⟩ := hp.strides hs hn hpa
    by_cases ha : P a
    · obtain ⟨hcourse', -⟩ := (hpassed a ha).strides hcourse.settled (hlt ha) hfa
      exact ⟨.trans hs hcourse hcourse' (Nat.le_succ n), fun _ => hcourse'.le_position⟩
    · obtain ⟨hcourse', hlt'⟩ := (hnot a ha).strides hcourse.settled hcourse.le_position hfa
      exact ⟨.trans hs hcourse hcourse' (Nat.le_refl n), hlt'⟩

/-- A loop has passed a token if it has gone round, or comes to a result that shows it. -/
theorem looping {step : α → Parser (Step α β)} {a : α}
    (hstep : ∀ a n, Strides n Step.IsAgain (step a))
    (hdone : ∀ {s s' : ParserState} {b : β}, step a s = (.ok (.done b), s') → ¬ Q b) :
    Strides n Q (loop step a) where
  strides {s s' b} hs hn hrun := by
    have honward : Onward n (loop step a) := inferInstance
    refine ⟨(honward.strides hs hn hrun).1, fun hb => ?_⟩
    change loopFor step (s.cursor.text.utf8ByteSize + 1) a s = _ at hrun
    rw [loopFor] at hrun
    obtain ⟨outcome, t, hfirst, hrest⟩ := bind_eq_ok hrun
    obtain ⟨hcourse, hpassed⟩ := (hstep a n).strides hs hn hfirst
    cases outcome with
    | done b' =>
      cases hrest
      exact absurd hb (hdone hfirst)
    | again next =>
      have hloop : Onward (n + 1) (loopFor step s.cursor.text.utf8ByteSize next) :=
        onward_loopFor (fun a => hstep a (n + 1)) _ next
      exact (hloop.strides hcourse.settled (hpassed trivial) hrest).1.le_position

end Strides

/-- The guarded productions of a record that read nodes are never empty. -/
class Grammar.Nourishing (g : Grammar) : Prop where
  type : ∀ n, Passes n g.type
  creationType : ∀ n, Passes n g.creationType
  expression : ∀ n, Passes n g.expression
  conditional : ∀ n, Passes n g.conditional
  unary : ∀ n, Passes n g.unary
  pattern : ∀ n, Passes n g.pattern
  arrayInitializer : ∀ n, Passes n g.arrayInitializer

namespace Grammar

variable {n : Nat} {g : Grammar} [g.Productive] [g.Striding] [hg : g.Nourishing]

instance : Passes n g.type := hg.type n

instance : Passes n g.creationType := hg.creationType n

instance : Passes n g.expression := hg.expression n

instance : Passes n g.conditional := hg.conditional n

instance : Passes n g.unary := hg.unary n

instance : Passes n g.pattern := hg.pattern n

instance : Passes n g.arrayInitializer := hg.arrayInitializer n

/-! ### Types -/

instance : Passes n g.typeArgument := by unfold typeArgument; infer_instance

instance (start : Nat) (annotations : List (Node .annotationUse)) :
    Passes n (g.classTypeFrom start annotations) := by
  unfold classTypeFrom
  infer_instance

instance : Passes n g.classType := by unfold classType; infer_instance

instance : Sights atVar := by unfold atVar; infer_instance

/-- A primitive type is found at its keyword. -/
theorem strides_primitive? {β : Type} {Q : β → Prop} {f : Option PrimitiveType → Parser β}
    (hsome : ∀ primitive, StridesOpen n Q (f (some primitive))) (hnone : Strides n Q (f none)) :
    Strides n Q (primitive? >>= f) := by
  unfold primitive?
  rw [bind_assoc]
  refine Strides.ofKind (fun kind hkind => ?_) hnone
  have hfound (found : Option PrimitiveType) : StridesOpen n Q (f found) := by
    cases found with
    | none => infer_instance
    | some primitive => exact hsome primitive
  split
  · exact hfound _
  · exact hfound _

instance (allowVar : Bool) : Passes n (g.elementType allowVar) := by
  unfold elementType
  exact .fromPosition fun start => .seq inferInstance fun annotations =>
    strides_primitive? (fun primitive => inferInstance) inferInstance

instance : Passes n g.typeBody := by unfold typeBody; infer_instance

instance : Passes n g.resultType := by unfold resultType; infer_instance

instance : Passes n g.castType := by unfold castType; infer_instance

instance : Passes n g.typeParameter := by unfold typeParameter; infer_instance

/-! ### Patterns, variables and labels -/

instance : Sights atUnnamed := by unfold atUnnamed; infer_instance

instance : Passes n g.patternBody := by unfold patternBody; infer_instance

instance : Passes n g.variableInitializer := by unfold variableInitializer; infer_instance

instance : Passes n g.arrayInitializerBody := by unfold arrayInitializerBody; infer_instance

instance : Passes n g.variableDeclarator := by unfold variableDeclarator; infer_instance

instance (isFirst : Bool) : Passes n (g.parameter isFirst) := by unfold parameter; infer_instance

instance : Sights atNullLabel := by unfold atNullLabel; infer_instance

instance : Passes n g.caseLabel := by unfold caseLabel caseLabelTree; infer_instance

instance : StridesOpen n (fun _ => True) defaultLabel := by unfold defaultLabel; infer_instance

instance : Passes n g.switchLabel := by unfold switchLabel; infer_instance

/-! ### Primary expressions -/

instance (negated : Bool) : Passes n (literal negated) := by
  unfold literal
  refine Strides.ofKind (fun kind hkind => ?_)
    (inferInstanceAs (Strides n _ (unexpected "literal")))
  split <;> infer_instance

instance (start : Nat) (parameters : Tree .lambdaParameters) :
    Passes n (g.lambdaFrom start parameters) := by
  unfold lambdaFrom
  infer_instance

instance (start : Nat) (type : Node .type) : Passes n (g.typePrimaryFrom start type) := by
  unfold typePrimaryFrom
  infer_instance

omit [g.Productive] [g.Striding] hg in
/-- The dimensions of a new array end with those that were read before. -/
theorem eq_of_newDimension {d d' : NewDimensions} {s s' : ParserState}
    (h : g.newDimension d s = (.ok (.done d'), s')) : d' = d := by
  unfold newDimension at h
  obtain ⟨start, s₁, -, h⟩ := bind_eq_ok h
  obtain ⟨annotations, s₂, -, h⟩ := bind_eq_ok h
  obtain ⟨found, s₃, -, h⟩ := bind_eq_ok h
  split at h
  · split at h
    · cases h
      rfl
    · exact absurd (congrArg Prod.fst h) (unexpected_ne_ok _ _ _)
  obtain ⟨next, s₄, -, h⟩ := bind_eq_ok h
  split at h
  · obtain ⟨first, s₅, -, h⟩ := bind_eq_ok h
    obtain ⟨second, s₆, -, h⟩ := bind_eq_ok h
    cases h
  split at h
  · obtain ⟨first, s₅, -, h⟩ := bind_eq_ok h
    obtain ⟨size, s₆, -, h⟩ := bind_eq_ok h
    obtain ⟨last, s₇, -, h⟩ := bind_eq_ok h
    cases h
  · obtain ⟨_, s₅, -, h⟩ := bind_eq_ok h
    cases h
    rfl

instance (start : Nat) (element : Node .type) : Passes n (g.arrayCreation start element) := by
  unfold arrayCreation
  refine .shown (P := fun d => d.sizes.isEmpty = false) (.looping inferInstance ?_)
    (fun d hd => inferInstance) fun d hd => ?_
  · intro s s' d h
    rw [eq_of_newDimension h]
    exact Bool.noConfusion
  · rw [if_pos (by simpa using hd)]
    infer_instance

instance (start : Nat) : Passes n (g.namePrimary start) := by unfold namePrimary; infer_instance

instance (start : Nat) : Passes n (g.parenthesized start) := by
  unfold parenthesized
  infer_instance

instance (start : Nat) (keyword : Keyword) :
    StridesOpen n (fun _ => True) (g.keywordPrimary start keyword) := by
  unfold keywordPrimary
  split <;> infer_instance

instance : Passes n g.primary := by
  unfold primary
  refine .fromPosition fun start => Strides.ofKind (fun kind hkind => ?_) inferInstance
  split <;> infer_instance

instance (start : Nat) (target : Node .expression) :
    StridesOpen n (fun _ => True) (classLiteral start target) := by
  unfold classLiteral
  split <;> infer_instance

instance (start : Nat) (target : Node .expression) :
    Passes n (g.dotSelector start target) := by
  unfold dotSelector
  refine Strides.ofKind (fun kind hkind => ?_) inferInstance
  split <;> infer_instance

/-! ### Operators -/

instance (start : Nat) : Passes n (g.castFrom start) := by unfold castFrom; infer_instance

instance (start : Nat) : Passes n (negativeLiteral start) := by
  unfold negativeLiteral
  infer_instance

instance (start : Nat) : Passes n (g.postfixExpression start) := by
  unfold postfixExpression selectors
  infer_instance

instance (start : Nat) : Passes n (g.parenExpression start) := by
  unfold parenExpression
  infer_instance

instance : Passes n g.unaryBody := by
  unfold unaryBody
  refine .fromPosition fun start => .seq inferInstance fun kind => .seq inferInstance fun found => ?_
  split
  · infer_instance
  · split <;> infer_instance

omit [g.Striding] in
/-- Operands pass tokens at every level of precedence, and operators only add to that. -/
theorem passes_binary (levels least : Nat) : Passes n (g.binary levels least) := by
  cases levels with
  | zero => exact inferInstanceAs (Passes n g.unaryBody)
  | succ levels =>
    have hstep (start n : Nat) (left : Node .expression) :
        Strides n Step.IsAgain (g.binaryStep (g.binary levels) least start left) :=
      strides_binaryStep (looking_binary levels) least start left
    rw [binary]
    infer_instance

instance (levels least : Nat) : Passes n (g.binary levels least) := passes_binary levels least

instance : Passes n g.anyBinary := by unfold anyBinary; infer_instance

instance : Passes n g.conditionalBody := by unfold conditionalBody; infer_instance

instance : Passes n g.expressionBody := by
  unfold expressionBody
  refine .fromPosition fun start => .passThen inferInstance fun target =>
    .seq inferInstance fun kind => ?_
  split <;> infer_instance

/-! ### Statements and declarations -/

instance : Passes n g.resource := by unfold resource; infer_instance

instance : Passes n g.enumConstant := by unfold enumConstant; infer_instance

instance : Strides n (·.isSome = true) g.package? := by unfold package?; infer_instance

instance : Passes n g.moduleBody := by unfold moduleBody; infer_instance

instance : Passes n g.moduleDeclaration := by unfold moduleDeclaration; infer_instance

/-! ### Levels -/

instance : innermost.Nourishing where
  type _ := inferInstanceAs (Passes _ refuseDepth)
  creationType _ := inferInstanceAs (Passes _ refuseDepth)
  expression _ := inferInstanceAs (Passes _ refuseDepth)
  conditional _ := inferInstanceAs (Passes _ refuseDepth)
  unary _ := inferInstanceAs (Passes _ refuseDepth)
  pattern _ := inferInstanceAs (Passes _ refuseDepth)
  arrayInitializer _ := inferInstanceAs (Passes _ refuseDepth)

instance : g.around.Nourishing where
  type _ := inferInstanceAs (Passes _ (guarded _ _))
  creationType _ := inferInstanceAs (Passes _ (guarded _ _))
  expression _ := inferInstanceAs (Passes _ (guarded _ _))
  conditional _ := inferInstanceAs (Passes _ (guarded _ _))
  unary _ := inferInstanceAs (Passes _ (guarded _ _))
  pattern _ := inferInstanceAs (Passes _ (guarded _ _))
  arrayInitializer _ := inferInstanceAs (Passes _ (guarded _ _))

/-- Every level passes tokens for its nodes. -/
theorem nourishing_levels (n : Nat) : (levels n).Nourishing := by
  induction n with
  | zero => exact inferInstanceAs innermost.Nourishing
  | succ n ih =>
    have hproductive := productive_levels n
    have hstriding := striding_levels n
    exact inferInstanceAs (levels n).around.Nourishing

end Grammar

instance : grammar.Nourishing := Grammar.nourishing_levels _

end JavaSyntax
