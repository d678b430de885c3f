import JavaSyntax.Proofs.Grammar.TypeEchoes

/-!
# Expressions echo each other

Switches, primary expressions with their selectors, and operators. What a builder holds of an
expression that it has read decides two things only: whether a new array has a dimension with a
size, and whether an expression before `.class` is a name with dots. Expressions that are alike
agree on both.
-/

set_option synthInstance.maxSize 16384

namespace JavaSyntax

open JavaSyntax.Parser Work Mirror

namespace Mirror

variable {M : Mirror} {n : Nat} {α : Type} [M.Likeness α]

/-- Both sides may ask whether arrows start lambdas. -/
instance (b : Bool) {p p' q q' : Parser α} [hp : M.Echoes n p p'] [hq : M.Echoes n q q'] :
    M.Echoes n (get >>= fun s => if (b && s.lambdas) = true then p else q)
      (get >>= fun s => if (b && s.lambdas) = true then p' else q') where
  ends {s t} hst hn := by
    rw [bind_apply, bind_apply, get_apply, get_apply]
    dsimp only
    rw [hst.lambdas_eq]
    split
    · exact hp.ends hst hn
    · exact hq.ends hst hn

/-! ### What is asked of expressions -/

instance {f : Form} : M.Alike (@Tree.qualifiedName? f) Tree.qualifiedName? where
  like t u h := by
    rw [← t.qualifiedName?_bare, ← u.qualifiedName?_bare, show t.bare = u.bare from h]
    exact Reflexive.refl _

/-- The dimensions of two new arrays are alike part by part. -/
instance : M.Likeness Grammar.NewDimensions :=
  ⟨fun d e => M.Like d.sizes e.sizes ∧ d.extra = e.extra ∧ M.Like d.annotations e.annotations⟩

instance : M.Alike Grammar.NewDimensions.mk Grammar.NewDimensions.mk :=
  ⟨fun _ _ hsizes _ _ hextra _ _ hannotations => ⟨hsizes, hextra, hannotations⟩⟩

instance : M.Alike Grammar.NewDimensions.sizes Grammar.NewDimensions.sizes := ⟨fun _ _ h => h.1⟩

instance : M.Alike Grammar.NewDimensions.extra Grammar.NewDimensions.extra := ⟨fun _ _ h => h.2.1⟩

instance : M.Alike Grammar.NewDimensions.annotations Grammar.NewDimensions.annotations :=
  ⟨fun _ _ h => h.2.2⟩

end Mirror

namespace Grammar

variable {M : Mirror} {n : Nat} {g : Grammar} [g.Productive] [g.Striding] [hg : g.Echoing M]

/-! ### Switches -/

instance : M.Echoes n atNullLabel atNullLabel := by unfold atNullLabel; infer_instance

instance : M.Echoes n g.caseLabelTree g.caseLabelTree := by unfold caseLabelTree; infer_instance

instance : M.Echoes n g.caseLabel g.caseLabel := by unfold caseLabel; infer_instance

instance : M.Echoes n g.caseGuard? g.caseGuard? := by unfold caseGuard?; infer_instance

instance : M.Echoes n defaultLabel defaultLabel := by unfold defaultLabel; infer_instance

instance : M.Echoes n g.switchLabel g.switchLabel := by unfold switchLabel; infer_instance

instance : M.Echoes n atSwitchLabel atSwitchLabel := by unfold atSwitchLabel; infer_instance

instance : M.Echoes n g.ruleBody g.ruleBody := by
  unfold ruleBody
  refine Echoes.seqPlain inferInstance fun kind => ?_
  split <;> infer_instance

instance (start : Nat) (a b : Node .switchLabel) [M.Alike a b] :
    M.Echoes n (g.ruleFrom start a) (g.ruleFrom start b) := by
  unfold ruleFrom
  infer_instance

instance : M.Echoes n g.rule g.rule := by unfold rule; infer_instance

instance : M.Echoes n g.labelWithColon g.labelWithColon := by unfold labelWithColon; infer_instance

instance : M.Echoes n atGroupStatement atGroupStatement := by
  unfold atGroupStatement
  infer_instance

instance (start : Nat) (a b : Node .switchLabel) [M.Alike a b] :
    M.Echoes n (g.groupFrom start a) (g.groupFrom start b) := by
  unfold groupFrom
  infer_instance

instance : M.Echoes n g.group g.group := by unfold group; infer_instance

instance : M.Echoes n g.switchCases g.switchCases := by unfold switchCases; infer_instance

instance : M.Echoes n g.switchParts g.switchParts := by unfold switchParts; infer_instance

/-! ### Lambdas and references -/

instance : M.Echoes n g.lambdaBody g.lambdaBody := by unfold lambdaBody; infer_instance

instance (start : Nat) (a b : Tree .lambdaParameters) [M.Alike a b] :
    M.Echoes n (g.lambdaFrom start a) (g.lambdaFrom start b) := by
  unfold lambdaFrom
  infer_instance

instance : M.Echoes n referenceName referenceName := by unfold referenceName; infer_instance

instance (start : Nat) (a b : Tree .referenceTarget) [M.Alike a b] :
    M.Echoes n (g.methodReference start a) (g.methodReference start b) := by
  unfold methodReference
  infer_instance

instance (start : Nat) (a b : Node .type) [M.Alike a b] :
    M.Echoes n (g.typePrimaryFrom start a) (g.typePrimaryFrom start b) := by
  unfold typePrimaryFrom
  infer_instance

/-! ### Creations -/

instance (d e : NewDimensions) [M.Alike d e] :
    M.Echoes n (g.newDimension d) (g.newDimension e) := by
  unfold newDimension
  infer_instance

instance (start : Nat) (a b : Node .type) [M.Alike a b] :
    M.Echoes n (g.arrayCreation start a) (g.arrayCreation start b) := by
  unfold arrayCreation
  infer_instance

instance (start : Nat) (a b : Option (Node .expression)) [M.Alike a b] (as bs : List (Node .type))
    [M.Alike as bs] (t u : Node .type) [M.Alike t u] :
    M.Echoes n (g.objectCreation start a as t) (g.objectCreation start b bs u) := by
  unfold objectCreation
  infer_instance

instance (start : Nat) (a b : Option (Node .expression)) [M.Alike a b] :
    M.Echoes n (g.creation start a) (g.creation start b) := by
  unfold creation
  infer_instance

/-! ### Names and other beginnings -/

instance (next : TokenKind) : M.Echoes n (atTypePrimary next) (atTypePrimary next) := by
  unfold atTypePrimary
  infer_instance

instance (start : Nat) : M.Echoes n (g.namePrimary start) (g.namePrimary start) := by
  unfold namePrimary
  infer_instance

instance (start : Nat) : M.Echoes n (g.parenthesized start) (g.parenthesized start) := by
  unfold parenthesized
  infer_instance

instance (start : Nat) (keyword : Keyword) :
    M.Echoes n (g.keywordPrimary start keyword) (g.keywordPrimary start keyword) := by
  unfold keywordPrimary
  split <;> infer_instance

instance : M.Echoes n g.primary g.primary := by
  unfold primary
  refine Echoes.marking fun start => Echoes.seqPlain inferInstance fun kind => ?_
  split <;> infer_instance

/-! ### Selectors -/

instance (start : Nat) (a b : Node .expression) [M.Alike a b] :
    M.Echoes n (classLiteral start a) (classLiteral start b) := by
  have hname : a.qualifiedName? = b.qualifiedName? := Alike.eq (M := M)
  unfold classLiteral
  rw [hname]
  split <;> infer_instance

instance (start : Nat) (a b : Node .expression) [M.Alike a b] :
    M.Echoes n (g.dotSelector start a) (g.dotSelector start b) := by
  unfold dotSelector
  refine Echoes.seqPlain inferInstance fun kind => ?_
  split <;> infer_instance

instance (start : Nat) (a b : Node .expression) [M.Alike a b] :
    M.Echoes n (g.selector start a) (g.selector start b) := by
  unfold selector
  refine Echoes.seqPlain inferInstance fun kind => ?_
  split
  · infer_instance
  · infer_instance
  · infer_instance
  · split <;> infer_instance

instance (start : Nat) (a b : Node .expression) [M.Alike a b] :
    M.Echoes n (g.selectors start a) (g.selectors start b) := by
  unfold selectors
  infer_instance

/-! ### Operators -/

instance (start : Nat) : M.Echoes n (g.castFrom start) (g.castFrom start) := by
  unfold castFrom
  infer_instance

instance : M.Echoes n implicitParameters implicitParameters := by
  unfold implicitParameters
  infer_instance

instance (kind : ParenKind) :
    M.Echoes n (g.lambdaParameters kind) (g.lambdaParameters kind) := by
  unfold lambdaParameters
  infer_instance

instance (kind : TokenKind) : M.Echoes n (atNegativeLiteral kind) (atNegativeLiteral kind) := by
  unfold atNegativeLiteral
  infer_instance

instance (start : Nat) : M.Echoes n (negativeLiteral start) (negativeLiteral start) := by
  unfold negativeLiteral
  infer_instance

instance (start : Nat) : M.Echoes n (g.postfixExpression start) (g.postfixExpression start) := by
  unfold postfixExpression
  infer_instance

instance (start : Nat) : M.Echoes n (g.parenExpression start) (g.parenExpression start) := by
  unfold parenExpression
  infer_instance

instance : M.Echoes n g.unaryBody g.unaryBody := by
  unfold unaryBody
  refine Echoes.marking fun start => Echoes.seqPlain inferInstance fun kind =>
    Echoes.seqPlain inferInstance fun found => ?_
  split
  · infer_instance
  · split <;> infer_instance

instance : M.Echoes n g.instanceOfTarget g.instanceOfTarget := by
  unfold instanceOfTarget
  infer_instance

omit [g.Productive] [g.Striding] in
/-- An operator and its right operand echo each other behind operands that are alike. -/
theorem echoes_binaryStep {operand : Nat → Parser (Node .expression)}
    (hoperand : ∀ least n, M.Echoes n (operand least) (operand least)) (least start : Nat)
    {a b : Node .expression} (hab : M.Like a b) :
    M.Echoes n (g.binaryStep operand least start a) (g.binaryStep operand least start b) := by
  have : M.Alike a b := ⟨hab⟩
  unfold binaryStep
  refine Echoes.seqPlain inferInstance fun kind => ?_
  split
  · infer_instance
  · split <;> infer_instance

/-- Operations echo each other at every level of precedence. -/
theorem echoes_binary (levels least n : Nat) :
    M.Echoes n (g.binary levels least) (g.binary levels least) := by
  induction levels generalizing least n with
  | zero =>
    rw [binary]
    infer_instance
  | succ levels ih =>
    rw [binary]
    refine Echoes.marking fun start => Echoes.seq inferInstance fun first => ?_
    exact Echoes.looping (fun k r => echoes_binaryStep ih least start r.like)
      (fun k => strides_binaryStep (looking_binary levels) least start) first.like

instance : M.Echoes n g.anyBinary g.anyBinary := echoes_binary 10 1 n

instance : M.Echoes n g.conditionalBody g.conditionalBody := by
  unfold conditionalBody
  infer_instance

instance : M.Echoes n g.expressionBody g.expressionBody := by
  unfold expressionBody
  refine Echoes.marking fun start => Echoes.seq inferInstance fun target =>
    Echoes.seqPlain inferInstance fun kind => ?_
  split <;> infer_instance

end Grammar

end JavaSyntax
