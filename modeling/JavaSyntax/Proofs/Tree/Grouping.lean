import JavaSyntax.Tree.Basic

/-!
# How operators group their operands

The operand of an operator is a tree that binds tight enough to stand there without
parentheses. What that demands of a tree is said for one node at a time: for the operands
of a binary operator and of `instanceof` by their binding powers, and for those of the
other operators by what they may not be.
-/

namespace JavaSyntax.Tree

/-- The binding power of a binary operation or a test with `instanceof`. -/
def precedence? : Tree .expression → Option Nat
  | .binary _ operator _ => some operator.precedence
  | .instanceOf _ _ => some instanceOfPrecedence
  | _ => none

/-- Whether an expression is an assignment or a conditional, which bind less tight than
anything else. -/
def isLoose : Tree .expression → Bool
  | .assignment .. | .conditional .. => true
  | _ => false

def isInstanceOf : Tree .expression → Bool
  | .instanceOf .. => true
  | _ => false

/-- Whether an expression can be the operand of a unary operator. -/
def isOperand (t : Tree .expression) : Bool := !t.isLoose && t.precedence?.isNone

/-- An expression can be an operand where at least a binding power is demanded. -/
structure BindsAtLeast (least : Nat) (t : Tree .expression) : Prop where
  not_loose : t.isLoose = false
  le_precedence : ∀ q, t.precedence? = some q → least ≤ q

/-- The operands of a node bind tight enough. The left operand of a binary operator may be a
test with `instanceof` whatever the operator is, since the type in the test ends where any
operator starts. -/
def Grouped : {f : Form} → Tree f → Prop
  | _, .binary left operator right =>
    left.inner.isLoose = false ∧
      (∀ q, left.inner.precedence? = some q →
        operator.precedence ≤ q ∨ left.inner.isInstanceOf = true) ∧
      right.inner.BindsAtLeast (operator.precedence + 1)
  | _, .instanceOf expression _ => expression.inner.BindsAtLeast instanceOfPrecedence
  | _, .unary _ operand => operand.inner.isLoose = false
  | _, .cast _ expression => expression.inner.isLoose = false
  | _, _ => True

/-- A test with `instanceof` has the binding power of comparisons. -/
theorem precedence?_of_isInstanceOf {t : Tree .expression} (h : t.isInstanceOf = true) :
    t.precedence? = some instanceOfPrecedence := by
  cases t <;> first | rfl | cases h

/-- The operand of a unary operator is no assignment and no conditional. -/
theorem isLoose_of_isOperand {t : Tree .expression} (h : t.isOperand = true) :
    t.isLoose = false := by
  cases t <;> first | rfl | cases h

/-- The operand of a unary operator has no binding power of its own. -/
theorem precedence?_of_isOperand {t : Tree .expression} (h : t.isOperand = true) :
    t.precedence? = none := by
  cases t <;> first | rfl | cases h

/-- An operand can stand wherever a binding power is demanded. -/
theorem bindsAtLeast_of_isOperand {t : Tree .expression} (h : t.isOperand = true) (least : Nat) :
    t.BindsAtLeast least := by
  refine ⟨isLoose_of_isOperand h, ?_⟩
  intro q hq
  rw [precedence?_of_isOperand h] at hq
  cases hq

/-- What binds tight enough for one power does so for lower ones. -/
theorem BindsAtLeast.mono {least least' : Nat} {t : Tree .expression} (h : t.BindsAtLeast least)
    (hle : least' ≤ least) : t.BindsAtLeast least' :=
  ⟨h.not_loose, fun q hq => Nat.le_trans hle (h.le_precedence q hq)⟩

end JavaSyntax.Tree
