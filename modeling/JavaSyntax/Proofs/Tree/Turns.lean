import JavaSyntax.Proofs.Tree.PlainExpressions

/-!
# Operands and operators take turns

Whether an operand or an operator comes next in an expression of operators, a scan of its words
from left to right can tell. The scan also minds the names that stand right behind a `<`. Since no
comparison is the left operand of another one, no `<` and no `>` comes behind such a name, so
the name is never the argument of a type.
-/

namespace JavaSyntax

/-- What comes next where operands and operators take turns. -/
inductive Turn where
  | operand
  /-- An operand, right behind a `<`. -/
  | compared
  | operator
  /-- An operator, behind a name that stands right behind a `<`. -/
  | argument
deriving DecidableEq

namespace Turn

def wantsOperand : Turn → Bool
  | .operand | .compared => true
  | .operator | .argument => false

/-- What comes next after a token, if the token may come next. -/
def next : Turn → TokenKind → Option Turn
  | .operand, .identifier => some .operator
  | .compared, .identifier => some .argument
  | .operand, .intLiteral | .compared, .intLiteral => some .operator
  | .operand, kind | .compared, kind =>
    if kind == .leftParen || (UnaryOperator.beforeOperand? kind).isSome then some .operand else none
  | .operator, .less => some .compared
  | .argument, .less | .argument, .greater => none
  | .operator, kind | .argument, kind =>
    if kind == .rightParen || (UnaryOperator.afterOperand? kind).isSome then some .operator
    else if kind.isInfix then some .operand
    else none

/-- What comes next after some words. -/
def after (t : Turn) (ws : List Word) : Option Turn := ws.foldlM (fun t w => t.next w.kind) t

/-- Some words may come next. -/
def Admits (t : Turn) (ws : List Word) : Prop := (t.after ws).isSome = true

variable {t t' : Turn} {kind : TokenKind} {w : Word} {us ws : List Word}

/-- Nothing comes, and the turn stays. -/
@[simp] theorem after_nil : t.after [] = some t := rfl

/-- The turn after words is found word by word. -/
theorem after_cons : t.after (w :: ws) = (t.next w.kind).bind (·.after ws) := rfl

/-- The turn after words and more is counted on from there. -/
theorem after_append : t.after (us ++ ws) = (t.after us).bind (·.after ws) :=
  List.foldlM_append

/-- A word that may come next hands the turn on. -/
theorem after_cons_of_next (h : t.next w.kind = some t') : t.after (w :: ws) = t'.after ws := by
  rw [after_cons, h]
  rfl

/-- Words that may come next hand the turn on. -/
theorem after_append_of_after (h : t.after us = some t') : t.after (us ++ ws) = t'.after ws := by
  rw [after_append, h]
  rfl

/-- After an operand, what stands between operands hands the turn to the next one, apart from
angles. -/
theorem next_of_isInfix (ht : t.wantsOperand = false) (hbetween : kind.isInfix = true)
    (hless : kind ≠ .less) (hgreater : kind ≠ .greater) : t.next kind = some .operand := by
  cases t <;> cases kind <;> first | rfl | cases ht; done | cases hbetween; done | contradiction

namespace Admits

/-- Words that may come next start with one that may. -/
theorem cons (h : t.Admits (w :: ws)) : ∃ t', t.next w.kind = some t' ∧ t'.Admits ws := by
  unfold Admits at h
  rw [after_cons] at h
  cases hnext : t.next w.kind with
  | none =>
    rw [hnext] at h
    cases h
  | some t' =>
    rw [hnext] at h
    exact ⟨t', rfl, h⟩

/-- The words are at an end, or the first of them may come next. -/
theorem next_wordAt (h : t.Admits ws) :
    (wordAt ws 0).kind = .endOfInput ∨ (t.next (wordAt ws 0).kind).isSome = true := by
  cases ws with
  | nil => exact .inl rfl
  | cons w ws =>
    obtain ⟨t', hnext, -⟩ := h.cons
    right
    rw [wordAt_cons_zero, hnext]
    rfl

/-- A token that may not come next does not. -/
theorem kind_ne (h : t.Admits ws) (hnone : t.next kind = none) (hend : kind ≠ .endOfInput) :
    (wordAt ws 0).kind ≠ kind := by
  rintro rfl
  rcases h.next_wordAt with hstop | hsome
  · exact hend hstop
  · rw [hnone] at hsome
    cases hsome

end Admits

end Turn

/-- Whether a token may stand in an expression of operators or at its end. -/
def TokenKind.takesTurns (kind : TokenKind) : Bool :=
  kind == .endOfInput || (Turn.operand.next kind).isSome || (Turn.operator.next kind).isSome

/-- Whatever may come next is of a kind that takes turns. -/
theorem Turn.takesTurns_of_next {t : Turn} {kind : TokenKind} (h : (t.next kind).isSome = true) :
    kind.takesTurns = true := by
  cases t <;> cases kind <;> first | rfl | cases h

/-- Only tokens that take turns are ahead. -/
theorem Turn.Admits.takesTurns_wordAt {t : Turn} {ws : List Word} (h : t.Admits ws) (n : Nat) :
    (wordAt ws n).kind.takesTurns = true := by
  induction ws generalizing t n with
  | nil => rfl
  | cons w ws ih =>
    obtain ⟨t', hnext, hrest⟩ := h.cons
    cases n with
    | zero =>
      apply Turn.takesTurns_of_next (t := t)
      rw [wordAt_cons_zero, hnext]
      rfl
    | succ n => exact ih hrest n

/-! ### The words of expressions -/

namespace Tree

/-- An operator with one operand has its sign before or behind the words of the operand. -/
theorem words_unary (operator : UnaryOperator) (operand : Node .expression) :
    (Tree.unary operator operand).words =
      if operator.isPostfix then operand.words ++ [.sign operator.token]
      else .sign operator.token :: operand.words := by
  unfold words
  rw [PlainExpression.pieces_unary]
  split
  · rw [Piece.words_append]
    rfl
  · have hgap : Piece.words (gap operator operand.inner) = [] := by
      unfold gap
      split <;> rfl
    change Word.sign operator.token :: Piece.words (_ ++ _) = _
    rw [Piece.words_append, hgap]
    rfl

/-- A binary operation has its sign between the words of the operands. -/
theorem words_binary (left : Node .expression) (operator : BinaryOperator)
    (right : Node .expression) :
    (Tree.binary left operator right).words =
      left.words ++ .sign operator.token :: right.words := by
  change Piece.words (_ ++ _) = _
  rw [Piece.words_append, Piece.words_append]
  rfl

/-- An assignment has its sign between the words of target and value. -/
theorem words_assignment (target : Node .expression) (operator : AssignmentOperator)
    (value : Node .expression) :
    (Tree.assignment target operator value).words =
      target.words ++ .sign operator.token :: value.words := by
  change Piece.words (_ ++ _) = _
  rw [Piece.words_append, Piece.words_append]
  rfl

/-- A conditional has its two signs between the words of its three parts. -/
theorem words_conditional (condition thenValue elseValue : Node .expression) :
    (Tree.conditional condition thenValue elseValue).words =
      condition.words ++ .sign .question ::
        (thenValue.words ++ .sign .colon :: elseValue.words) := by
  change Piece.words (_ ++ (_ ++ (_ ++ (_ ++ _)))) = _
  simp only [Piece.words_append]
  rfl

/-- An expression in parentheses has its words between them. -/
theorem words_parenthesized (expression : Node .expression) :
    (Tree.parenthesized expression).words =
      .sign .leftParen :: (expression.words ++ [.sign .rightParen]) := by
  change Word.sign .leftParen :: Piece.words (_ ++ _) = _
  rw [Piece.words_append]
  rfl

end Tree

/-! ### The turns of expressions -/

/-- Behind the words of a tree it is the turn of an operator. If the tree binds tighter than a
comparison, it does not end with a name right behind a `<`, and may itself stand behind a `<`. -/
structure TakesTurns (e : Tree .expression) (ws : List Word) : Prop where
  exists_after : ∃ t, Turn.operand.after ws = some t ∧ t.wantsOperand = false
  after_eq : e.BindsAtLeast (instanceOfPrecedence + 1) → Turn.operand.after ws = some .operator
  exists_after_compared : e.BindsAtLeast (instanceOfPrecedence + 1) →
    ∃ t, Turn.compared.after ws = some t ∧ t.wantsOperand = false

namespace TakesTurns

variable {e left right : Tree .expression} {ws us vs : List Word}

/-- Words that it does not matter what they stand behind. -/
theorem of_after (h : ∀ t : Turn, t.wantsOperand = true → t.after ws = some .operator) :
    TakesTurns e ws where
  exists_after := ⟨.operator, h .operand rfl, rfl⟩
  after_eq _ := h .operand rfl
  exists_after_compared _ := ⟨.operator, h .compared rfl, rfl⟩

/-- Operands of a sign that is no comparison, and are not bound tighter than one. -/
theorem loose {kind : TokenKind} (hbetween : kind.isInfix = true) (hless : kind ≠ .less)
    (hgreater : kind ≠ .greater) (hleft : TakesTurns left us) (hright : TakesTurns right vs)
    (hloose : ¬ e.BindsAtLeast (instanceOfPrecedence + 1)) :
    TakesTurns e (us ++ .sign kind :: vs) := by
  obtain ⟨t, ht, hwants⟩ := hleft.exists_after
  obtain ⟨t', ht', hwants'⟩ := hright.exists_after
  have hnext := Turn.next_of_isInfix hwants hbetween hless hgreater
  refine ⟨⟨t', ?_, hwants'⟩, fun h => absurd h hloose, fun h => absurd h hloose⟩
  rw [Turn.after_append_of_after ht, Turn.after_cons_of_next hnext, ht']

/-- A comparison, of which both operands bind tighter than it. -/
theorem comparison {left right : Node .expression} {operator : BinaryOperator}
    (hcompares : operator.precedence = instanceOfPrecedence)
    (hleft : TakesTurns left.inner us) (hright : TakesTurns right.inner vs)
    (hbinds : left.inner.BindsAtLeast (instanceOfPrecedence + 1))
    (hbinds' : right.inner.BindsAtLeast (instanceOfPrecedence + 1)) :
    TakesTurns (.binary left operator right) (us ++ .sign operator.token :: vs) := by
  have hloose : ¬ (Tree.binary left operator right).BindsAtLeast (instanceOfPrecedence + 1) := by
    intro h
    have := h.le_precedence _ rfl
    omega
  refine ⟨?_, fun h => absurd h hloose, fun h => absurd h hloose⟩
  rw [Turn.after_append_of_after (hleft.after_eq hbinds)]
  by_cases hless : operator = .less
  · subst hless
    exact hright.exists_after_compared hbinds'
  · have hnext : Turn.operator.next operator.token = some .operand := by
      cases operator <;> first | rfl | exact absurd rfl hless
    exact ⟨.operator, (Turn.after_cons_of_next hnext).trans (hright.after_eq hbinds'), rfl⟩

/-- An operation that is no comparison. Its left operand may end with a name behind a `<`. -/
theorem operation {left right : Node .expression} {operator : BinaryOperator}
    (hcompares : operator.precedence ≠ instanceOfPrecedence)
    (hleft : TakesTurns left.inner us) (hright : TakesTurns right.inner vs)
    (hbinds : left.inner.BindsAtLeast operator.precedence)
    (hbinds' : right.inner.BindsAtLeast (operator.precedence + 1)) :
    TakesTurns (.binary left operator right) (us ++ .sign operator.token :: vs) := by
  have hnext (t : Turn) (ht : t.wantsOperand = false) : t.next operator.token = some .operand := by
    apply Turn.next_of_isInfix ht operator.isInfix_token
    · cases operator <;> first | exact absurd rfl hcompares | exact nofun
    · cases operator <;> first | exact absurd rfl hcompares | exact nofun
  obtain ⟨t, ht, hwants⟩ := hleft.exists_after
  obtain ⟨t', ht', hwants'⟩ := hright.exists_after
  refine ⟨⟨t', ?_, hwants'⟩, fun h => ?_, fun h => ?_⟩
  · rw [Turn.after_append_of_after ht, Turn.after_cons_of_next (hnext t hwants), ht']
  · have hle := h.le_precedence _ rfl
    rw [Turn.after_append_of_after ht, Turn.after_cons_of_next (hnext t hwants)]
    exact hright.after_eq (hbinds'.mono (by omega))
  · have hle := h.le_precedence _ rfl
    obtain ⟨u, hu, hwantsu⟩ := hleft.exists_after_compared (hbinds.mono hle)
    refine ⟨.operator, ?_, rfl⟩
    rw [Turn.after_append_of_after hu, Turn.after_cons_of_next (hnext u hwantsu)]
    exact hright.after_eq (hbinds'.mono (by omega))

end TakesTurns

namespace PlainExpression

variable {e : Node .expression}

/-- Assignments and conditionals never bind tight enough. -/
theorem not_bindsAtLeast_of_isLoose {e : Tree .expression} (h : e.isLoose = true) (least : Nat) :
    ¬ e.BindsAtLeast least := by
  intro hbinds
  rw [hbinds.not_loose] at h
  cases h

/-- Operands and operators take turns in an expression of operators. -/
theorem takesTurns (h : PlainExpression e) : TakesTurns e.inner e.words := by
  induction h with
  | name hname =>
    exact ⟨⟨.operator, rfl, rfl⟩, fun _ => rfl, fun _ => ⟨.argument, rfl, rfl⟩⟩
  | literal hdecimal =>
    refine .of_after fun t ht => ?_
    cases t <;> first | rfl | cases ht
  | @parenthesized span source expression hexpression ih =>
    obtain ⟨t, ht, hwants⟩ := ih.exists_after
    refine .of_after fun first hfirst => ?_
    have hopen : first.next .leftParen = some .operand := by
      cases first <;> first | rfl | cases hfirst
    have hclose : t.next .rightParen = some .operator := by
      cases t <;> first | rfl | cases hwants
    change first.after (Tree.parenthesized expression).words = _
    rw [Tree.words_parenthesized, Turn.after_cons_of_next hopen, Turn.after_append_of_after ht,
      Turn.after_cons_of_next hclose, Turn.after_nil]
  | @unary span source operator operand hoperand hunary hplace ih =>
    have hbinds := Tree.bindsAtLeast_of_isOperand hunary (instanceOfPrecedence + 1)
    refine .of_after fun first hfirst => ?_
    change first.after (Tree.unary operator operand).words = _
    rw [Tree.words_unary]
    split
    · rename_i hbehind
      obtain ⟨t, ht, hwants⟩ : ∃ t, first.after operand.words = some t ∧
          t.wantsOperand = false := by
        cases first with
        | operand => exact ih.exists_after
        | compared => exact ih.exists_after_compared hbinds
        | operator => cases hfirst
        | argument => cases hfirst
      have hnext : t.next operator.token = some .operator := by
        cases operator <;> cases t <;> first | rfl | cases hbehind; done | cases hwants
      rw [Turn.after_append_of_after ht, Turn.after_cons_of_next hnext, Turn.after_nil]
    · have hnext : first.next operator.token = some .operand := by
        cases operator <;> cases first <;> first | rfl | cases hfirst
      rw [Turn.after_cons_of_next hnext, ih.after_eq hbinds]
  | @binary span source left operator right hleft hright hbinds hbinds' hcomparison ihleft
      ihright =>
    change TakesTurns (.binary left operator right) (Tree.binary left operator right).words
    rw [Tree.words_binary]
    by_cases hcompares : operator.precedence = instanceOfPrecedence
    · rw [hcompares] at hbinds hbinds'
      refine .comparison hcompares ihleft ihright ⟨hbinds.not_loose, fun q hq => ?_⟩ hbinds'
      have hle := hbinds.le_precedence q hq
      have hne : q ≠ instanceOfPrecedence := by
        rintro rfl
        exact hcomparison hq hcompares
      omega
    · exact .operation hcompares ihleft ihright hbinds hbinds'
  | @conditional span source condition thenValue elseValue hcondition hthen helse hloose
      hassignment ihcondition ihthen ihelse =>
    change TakesTurns (.conditional condition thenValue elseValue)
      (Tree.conditional condition thenValue elseValue).words
    rw [Tree.words_conditional]
    have hnot := not_bindsAtLeast_of_isLoose
      (e := .conditional condition thenValue elseValue) rfl (instanceOfPrecedence + 1)
    exact .loose rfl nofun nofun ihcondition (.loose rfl nofun nofun ihthen ihelse hnot) hnot
  | @assignment span source target operator value htarget hvalue hassignment ihtarget ihvalue =>
    change TakesTurns (.assignment target operator value)
      (Tree.assignment target operator value).words
    rw [Tree.words_assignment]
    have hnot := not_bindsAtLeast_of_isLoose
      (e := .assignment target operator value) rfl (instanceOfPrecedence + 1)
    refine .loose operator.isInfix_token ?_ ?_ ihtarget ihvalue hnot
    · cases operator <;> exact nofun
    · cases operator <;> exact nofun

/-- An expression starts with an operand. -/
theorem admits (h : PlainExpression e) : Turn.operand.Admits e.words := by
  obtain ⟨t, ht, -⟩ := h.takesTurns.exists_after
  rw [Turn.Admits, ht]
  rfl

end PlainExpression

end JavaSyntax
