import JavaSyntax.Lexer.Literal
import JavaSyntax.Proofs.Tree.Parts
import JavaSyntax.Token.Kind

/-!
# Well-formed trees

The forms of trees leave room for more than the language has: a `try` that handles nothing, a
class type without names, a wildcard where a type is meant. Some of this can be ruled out by
looking at one tree alone. The rest is about places: there are nodes that may stand below certain
others only, such as a literal that needs a minus sign in front of it. A node is kept if nothing
inside it breaks any of these rules, and plain if it may stand in every place.

Operators before an operand are stacked directly: if the operand of one starts with another, it is
an operation with that one. This is what printing relies on when it keeps two signs apart.
-/

namespace JavaSyntax

namespace UnaryOperator

/-- The operator of a token behind an operand is one that stands there. -/
theorem isPostfix_of_afterOperand? {kind : TokenKind} {operator : UnaryOperator}
    (h : afterOperand? kind = some operator) : operator.isPostfix = true := by
  unfold afterOperand? at h
  split at h <;> cases h <;> rfl

/-- The operator of a token before an operand is one that stands there. -/
theorem isPostfix_of_beforeOperand? {kind : TokenKind} {operator : UnaryOperator}
    (h : beforeOperand? kind = some operator) : operator.isPostfix = false := by
  unfold beforeOperand? at h
  split at h <;> cases h <;> rfl

end UnaryOperator

/-! ### What a tree by itself must be like -/

namespace Tree

/-- A list of trees is empty if the trees are none. -/
@[simp] theorem isEmpty_ofList {f : Form} (ts : List (Tree f)) :
    (ofList ts).isEmpty = ts.isEmpty := by
  cases ts <;> rfl

/-- A list of some trees is not empty. -/
theorem isEmpty_ofList_of_ne_nil {f : Form} {ts : List (Tree f)} (h : ts ≠ []) :
    (ofList ts).isEmpty = false := by
  simpa using h

/-- A tree that may be missing is present if it is there. -/
@[simp] theorem isPresent_ofOption {f : Form} (t : Option (Tree f)) :
    (ofOption t).isPresent = t.isSome := by
  cases t <;> rfl

def isArrayType : Tree .type → Bool
  | .arrayType .. => true
  | _ => false

def isReceiver : Tree .parameter → Bool
  | .parameter _ _ _ _ _ receiver => receiver

def hasStatements : Tree .switchGroup → Bool
  | .switchGroup _ statements => !statements.isEmpty

/-- Only the first parameter can be a receiver. -/
def ReceiverFirst (parameters : Tree (.list (.node .parameter))) : Prop :=
  ∀ p ∈ parameters.toList.tail, p.inner.isReceiver = false

/-- The operator that an expression starts with, if it starts with one. -/
def sign? : {f : Form} → Tree f → Option UnaryOperator
  | .node _, .located t _ _ => sign? t
  | _, .present t => t.sign?
  | _, .unary operator operand => if operator.isPostfix then operand.sign? else some operator
  | _, .binary left _ _ => left.sign?
  | _, .instanceOf expression _ => expression.sign?
  | _, .assignment target _ _ => target.sign?
  | _, .conditional condition _ _ => condition.sign?
  | _, .this qualifier | _, .super qualifier => qualifier.sign?
  | _, .fieldAccess target _ => target.sign?
  | _, .arrayAccess array _ => array.sign?
  | _, .methodCall target _ _ _ => target.sign?
  | _, .objectCreation outer _ _ _ _ => outer.sign?
  | _, .methodReference target _ _ => target.sign?
  | _, .expressionTarget expression => expression.sign?
  | _, _ => none

/-- An expression starts with the operator that the tree inside its node starts with. -/
theorem sign?_eq_inner {f : Form} (a : Node f) : a.sign? = a.inner.sign? := by
  cases a
  rfl

/-- Whether an expression is an operation whose operator stands before its operand. -/
def isPrefixed : Tree .expression → Bool
  | .unary operator _ => !operator.isPostfix
  | _ => false

/-- What holds of the trees of the language beyond their form. Nodes inside a tree are trees of
their own, but the parts of a tree that are no nodes belong to it. -/
def WellFormed : {f : Form} → Tree f → Prop
  | _, .present tree => tree.WellFormed
  -- Types
  | _, .classType segments => segments.isEmpty = false
  | _, .arrayType element dimensions =>
    dimensions.isEmpty = false ∧ element.inner.isArrayType = false
  | _, .intersectionType bounds => 2 ≤ bounds.toList.length
  | _, .unionType _ => False
  -- Expressions
  | _, .arrayCreation _ dimensions extraDimensions annotations initializer =>
    annotations.toList.length = dimensions.toList.length + extraDimensions ∧
      1 ≤ annotations.toList.length ∧ initializer.isPresent = dimensions.isEmpty
  | _, .unary operator operand =>
    operator.isPostfix = false → operand.sign?.isSome = true → operand.inner.isPrefixed = true
  | _, .lambda parameters _ => parameters.WellFormed
  | _, .implicitParameters names inParentheses => inParentheses = false → names.length = 1
  | _, .explicitParameters parameters => parameters.ReceiverFirst
  -- Switches
  | _, .switchExpression _ body => body.WellFormed
  | _, .switchStatement _ body => body.WellFormed
  | _, .rules cases => cases.isEmpty = false
  | _, .groups cases => ∀ group ∈ cases.toList.dropLast, group.inner.hasStatements = true
  | _, .switchGroup labels _ => labels.isEmpty = false
  | _, .switchLabel labels _ => labels.isEmpty = false
  -- Statements
  | _, .tryStatement resources _ catches finallyBlock =>
    resources.isEmpty = false ∨ catches.isEmpty = false ∨ finallyBlock.isPresent = true
  | _, .catchClause _ types _ _ => types.isEmpty = false
  | _, .localVariable declaration => declaration.WellFormed
  | _, .forStatement init _ _ _ => init.WellFormed
  | _, .forDeclaration declaration => declaration.WellFormed
  | _, .localVariables _ _ declarators => declarators.isEmpty = false
  -- Declarations
  | _, .parameter _ _ varargs _ dimensions receiver =>
    receiver = true → varargs = false ∧ dimensions = 0
  | _, .fieldDeclaration _ _ declarators => declarators.isEmpty = false
  | _, .methodDeclaration _ _ _ _ parameters _ _ _ _ => parameters.ReceiverFirst
  | _, .constructorDeclaration _ _ _ parameters _ _ => parameters.ReceiverFirst
  | _, .recordDeclaration _ _ _ components _ _ => components.ReceiverFirst
  | _, .compilationUnit _ _ types module => module.isPresent = true → types.isEmpty = true
  | _, _ => True

end Tree

/-! ### Literals and names -/

namespace LiteralText

/-- A literal is what the lexer makes of its text. -/
def Genuine (l : LiteralText) : Prop :=
  ∃ kind, LiteralKind.ofToken? kind = some l.kind ∧
    Literal.decode kind l.text.toList = .ok l.value

/-- Whether a literal is an integer that needs a minus sign in front of it. -/
def needsMinus (l : LiteralText) : Bool :=
  match l.kind with
  | .int => l.value.any (·.isNegationOnly .int)
  | .long => l.value.any (·.isNegationOnly .long)
  | _ => false

end LiteralText

namespace Tree

def literal? : {f : Form} → Tree f → Option LiteralText
  | _, .literal l => some l
  | _, _ => none

/-- The last name of a class type. -/
def lastName? : {f : Form} → Tree f → Option String
  | .type, t => t.simpleTypeName?
  | _, _ => none

/-- The name of the type that a tree declares. -/
def declaredType? : {f : Form} → Tree f → Option String
  | _, .classDeclaration _ name _ _ _ _ _ => some name
  | _, .interfaceDeclaration _ name _ _ _ _ => some name
  | _, .annotationTypeDeclaration _ name _ => some name
  | _, .enumDeclaration _ name _ _ _ => some name
  | _, .recordDeclaration _ name _ _ _ _ => some name
  | _, .typeParameter _ name _ => some name
  | _, _ => none

/-! ### Trees that may not stand everywhere -/

def isWildcard : {f : Form} → Tree f → Bool
  | _, .wildcardType .. => true
  | _, _ => false

variable {f : Form}

def needsMinus (t : Tree f) : Bool := t.literal?.any LiteralText.needsMinus

/-- Whether a tree is a class type with a last name that names no type. -/
def isRestricted (t : Tree f) : Bool := t.lastName?.any isRestrictedTypeName

/-- Whether a tree may stand in certain places only. -/
def isConfined (t : Tree f) : Bool := t.needsMinus || t.isRestricted || t.isWildcard

/-- The operand of a minus sign. -/
def negated? : {f : Form} → Tree f → Option Part
  | _, .unary .minus operand => some ⟨_, operand⟩
  | _, _ => none

/-- The type of a class literal. -/
def literalType? : {f : Form} → Tree f → Option Part
  | _, .classLiteral type => some ⟨_, type⟩
  | _, _ => none

/-- A tree with its lists of type arguments emptied. -/
def withoutTypeArguments : {f : Form} → Tree f → Tree f
  | _, .cons head tail => .cons head.withoutTypeArguments tail.withoutTypeArguments
  | _, .classType segments => .classType segments.withoutTypeArguments
  | _, .classTypeSegment annotations name _ => .classTypeSegment annotations name .absent
  | _, .methodCall target _ name arguments => .methodCall target .nil name arguments
  | _, .objectCreation outer _ type arguments body =>
    .objectCreation outer .nil type arguments body
  | _, .methodReference target _ name => .methodReference target .nil name
  | _, .constructorInvocation qualifier _ kind arguments =>
    .constructorInvocation qualifier .nil kind arguments
  | _, t => t

/-- Whether nothing but its form and its nodes matters for a tree: it is no literal, has no type
arguments, declares no type and may stand everywhere. -/
def isOrdinary : {f : Form} → Tree f → Bool
  | _, .literal _ | _, .wildcardType .. => false
  | _, .cons .. | _, .classType _ | _, .classTypeSegment .. => false
  | _, .methodCall _ .nil _ _ => true
  | _, .methodCall .. | _, .objectCreation .. | _, .methodReference .. => false
  | _, .constructorInvocation .. => false
  | _, .classDeclaration .. | _, .interfaceDeclaration .. | _, .enumDeclaration .. => false
  | _, .annotationTypeDeclaration .. | _, .recordDeclaration .. | _, .typeParameter .. => false
  | _, _ => true

/-- An ordinary tree is no literal, declares no type, has no type arguments and is not confined. -/
theorem of_isOrdinary {t : Tree f} (h : t.isOrdinary = true) :
    t.literal? = none ∧ t.declaredType? = none ∧ t.withoutTypeArguments = t ∧
      t.isConfined = false := by
  cases t with
  | methodCall _ types =>
    cases types with
    | nil => exact ⟨rfl, rfl, rfl, rfl⟩
    | cons => cases h
  | _ => first | exact ⟨rfl, rfl, rfl, rfl⟩ | cases h

/-- A tree that declares a type is no literal and has no type arguments. -/
theorem of_declaredType? {t : Tree f} {name : String} (h : t.declaredType? = some name) :
    t.literal? = none ∧ t.withoutTypeArguments = t := by
  cases t <;> first | exact ⟨rfl, rfl⟩ | cases h

/-- The rules that the tree inside a node keeps: it is well-formed, its literal is genuine, the
type that it declares has a name for types, and none of its children stands where it may not. -/
structure Regular (t : Tree f) : Prop where
  wellFormed : t.WellFormed
  genuine : ∀ l, t.literal? = some l → l.Genuine
  unrestricted : ∀ name, t.declaredType? = some name → isRestrictedTypeName name = false
  negated : ∀ q ∈ t.parts, q.node.inner.needsMinus = true → t.negated? = some q
  argument : ∀ q ∈ t.withoutTypeArguments.parts, q.node.inner.isWildcard = false
  classLiteral : ∀ q ∈ t.parts, q.node.inner.isRestricted = true → t.literalType? = some q

end Tree

namespace Part

/-- Every node inside a node keeps the rules. -/
def Kept (p : Part) : Prop := ∀ q, Within q p → q.node.inner.Regular

/-- A node that may be a type argument, or stand anywhere if it is not a wildcard. -/
structure Argument (p : Part) : Prop where
  kept : p.Kept
  needsMinus_eq : p.node.inner.needsMinus = false
  isRestricted_eq : p.node.inner.isRestricted = false

/-- A node that may stand anywhere. -/
structure Plain (p : Part) : Prop extends Argument p where
  isWildcard_eq : p.node.inner.isWildcard = false

variable {p q : Part}

/-- The tree inside a node that is kept keeps the rules. -/
theorem Kept.regular (h : p.Kept) : p.node.inner.Regular := h p (.refl p)

/-- The children of a node that is kept are kept. -/
theorem Kept.of_mem_children (h : p.Kept) (hq : q ∈ p.children) : q.Kept :=
  fun r hr => h r (.child hq hr)

/-- A node that is kept may be a type argument if it is not confined. -/
theorem Kept.argument (h : p.Kept) (hconfined : p.node.inner.isConfined = false) : p.Argument := by
  simp only [Tree.isConfined, Bool.or_eq_false_iff] at hconfined
  exact ⟨h, hconfined.1.1, hconfined.1.2⟩

/-- A node that is kept may stand anywhere if it is not confined. -/
theorem Kept.plain (h : p.Kept) (hconfined : p.node.inner.isConfined = false) : p.Plain :=
  ⟨h.argument hconfined, (Bool.or_eq_false_iff.mp hconfined).2⟩

/-- Below a node without special places, every node may stand anywhere. -/
theorem Kept.plain_of_mem_children (h : p.Kept) (hq : q ∈ p.children)
    (hnegated : p.node.inner.negated? = none) (htype : p.node.inner.literalType? = none)
    (harguments : p.node.inner.withoutTypeArguments = p.node.inner) : q.Plain := by
  have hregular := h.regular
  refine ⟨⟨h.of_mem_children hq, ?_, ?_⟩, ?_⟩
  · refine Bool.eq_false_iff.mpr fun hminus => ?_
    rw [hregular.negated q hq hminus] at hnegated
    cases hnegated
  · refine Bool.eq_false_iff.mpr fun hrestricted => ?_
    rw [hregular.classLiteral q hq hrestricted] at htype
    cases htype
  · refine hregular.argument q ?_
    rw [harguments]
    exact hq

end Part

namespace Tree

variable {f : Form} {t : Tree f} {span : Span} {source : String}

/-- What holds of a node holds of all its parts, as it is the only one. -/
theorem forall_mem_parts_node {a : Node f} {P : Part → Prop} (h : P ⟨f, a⟩) :
    ∀ q ∈ a.parts, P q := by
  rw [parts_node]
  exact List.forall_mem_singleton.mpr h

/-- The nodes in a tree stand where they may, which is outside of it for none of them. -/
structure Placed (t : Tree f) : Prop where
  arguments : ∀ q ∈ t.parts, q.Argument
  exposed : ∀ q ∈ t.withoutTypeArguments.parts, q.node.inner.isWildcard = false

/-- A tree of which a node that keeps the rules can be made. -/
structure Ready (t : Tree f) : Prop extends Placed t where
  wellFormed : t.WellFormed
  genuine : ∀ l, t.literal? = some l → l.Genuine
  unrestricted : ∀ name, t.declaredType? = some name → isRestrictedTypeName name = false

/-- Nodes that may stand anywhere stand where they may. -/
theorem Placed.of_plain (hplain : ∀ q ∈ t.parts, q.Plain)
    (harguments : t.withoutTypeArguments = t) : t.Placed where
  arguments q hq := (hplain q hq).toArgument
  exposed q hq := by
    rw [harguments] at hq
    exact (hplain q hq).isWildcard_eq

/-- The nodes in a list stand where they may if those of its items do. -/
theorem Placed.ofList {ts : List (Tree f)} (h : ∀ t ∈ ts, t.Placed) : (ofList ts).Placed := by
  induction ts with
  | nil => exact .of_plain nofun rfl
  | cons t ts ih =>
    obtain ⟨ht, hts⟩ := List.forall_mem_cons.mp h
    have hrest := ih hts
    constructor
    · intro q hq
      exact (List.mem_append.mp hq).elim (ht.arguments q) (hrest.arguments q)
    · intro q hq
      exact (List.mem_append.mp hq).elim (ht.exposed q) (hrest.exposed q)

/-- A node keeps the rules if the tree in it does and its children do. -/
theorem Regular.kept (h : t.Regular) (hchildren : ∀ q ∈ t.parts, q.Kept) :
    Part.Kept ⟨f, .located t span source⟩ := by
  intro q hq
  cases hq with
  | refl => exact h
  | child hq hr => exact hchildren _ hq _ hr

/-- A tree that is ready keeps the rules. -/
theorem Ready.regular (h : t.Ready) : t.Regular where
  wellFormed := h.wellFormed
  genuine := h.genuine
  unrestricted := h.unrestricted
  negated q hq hminus := by
    rw [(h.arguments q hq).needsMinus_eq] at hminus
    cases hminus
  argument := h.exposed
  classLiteral q hq hrestricted := by
    rw [(h.arguments q hq).isRestricted_eq] at hrestricted
    cases hrestricted

/-- The node that is made of a tree that is ready is kept. -/
theorem Ready.kept (h : t.Ready) : Part.Kept ⟨f, .located t span source⟩ :=
  h.regular.kept fun q hq => (h.arguments q hq).kept

/-- Most trees are ready if they are well-formed and their children may stand anywhere. -/
theorem Ready.of_plain (hplain : ∀ q ∈ t.parts, q.Plain) (hwellFormed : t.WellFormed)
    (hliteral : t.literal? = none)
    (hname : ∀ name, t.declaredType? = some name → isRestrictedTypeName name = false)
    (harguments : t.withoutTypeArguments = t) : t.Ready where
  toPlaced := .of_plain hplain harguments
  wellFormed := hwellFormed
  genuine l hl := by
    rw [hliteral] at hl
    cases hl
  unrestricted := hname

/-- An ordinary tree is ready if it is well-formed and its nodes may stand anywhere. -/
theorem Ready.of_isOrdinary (h : t.isOrdinary = true) (hplain : ∀ q ∈ t.parts, q.Plain)
    (hwellFormed : t.WellFormed) : t.Ready := by
  obtain ⟨hliteral, hname, harguments, -⟩ := Tree.of_isOrdinary h
  refine .of_plain hplain hwellFormed hliteral (fun name hdeclared => ?_) harguments
  rw [hname] at hdeclared
  cases hdeclared

/-- A declaration is ready if it is well-formed, its name is one for types and its children may
stand anywhere. -/
theorem Ready.of_declaredType? {name : String} (h : t.declaredType? = some name)
    (hname : isRestrictedTypeName name = false) (hplain : ∀ q ∈ t.parts, q.Plain)
    (hwellFormed : t.WellFormed) : t.Ready := by
  obtain ⟨hliteral, harguments⟩ := Tree.of_declaredType? h
  refine .of_plain hplain hwellFormed hliteral (fun other hother => ?_) harguments
  rw [h] at hother
  cases hother
  exact hname

/-- Only the arguments of a tree may be wildcards. -/
theorem Placed.of_arguments {arguments : List Part} (harguments : ∀ q ∈ arguments, q.Argument)
    (hplain : ∀ q ∈ t.withoutTypeArguments.parts, q.Plain)
    (hparts : ∀ q ∈ t.parts, q ∈ t.withoutTypeArguments.parts ∨ q ∈ arguments) : t.Placed where
  arguments q hq := (hparts q hq).elim (fun h => (hplain q h).toArgument) (harguments q)
  exposed q hq := (hplain q hq).isWildcard_eq

end Tree

end JavaSyntax
