import JavaSyntax.Proofs.Tree.Grouping
import JavaSyntax.Proofs.Tree.Pieces

/-!
# Expressions of operators

Names, decimal numbers and parentheses with operators between them, grouped so that no
parentheses are missing. Their canonical text is made of words that the lexer reads as
themselves, since a blank stands between operators that would be read as one.
-/

namespace JavaSyntax

namespace Tree

/-- Whether an expression is a name or in parentheses, as it must be to be stepped. -/
def isPlace : Tree .expression → Bool
  | .simpleName _ | .parenthesized _ => true
  | _ => false

def isAssignment : Tree .expression → Bool
  | .assignment .. => true
  | _ => false

end Tree

/-- Whether an operator steps a variable up or down. -/
def UnaryOperator.isStep : UnaryOperator → Bool
  | .preIncrement | .preDecrement | .postIncrement | .postDecrement => true
  | _ => false

/-- The expressions of names, decimal numbers, operators and parentheses in which every
operand binds tight enough to stand where it does. A comparison is not the left operand of
another one. -/
inductive PlainExpression : Node .expression → Prop
  | name {span : Span} {source name : String} (hname : isName name = true) :
      PlainExpression (.located (.simpleName name) span source)
  | literal {span : Span} {source : String} {l : LiteralText} (hdecimal : l.IsDecimal) :
      PlainExpression (.located (.literal l) span source)
  | parenthesized {span : Span} {source : String} {expression : Node .expression}
      (hexpression : PlainExpression expression) :
      PlainExpression (.located (.parenthesized expression) span source)
  | unary {span : Span} {source : String} {operator : UnaryOperator} {operand : Node .expression}
      (hoperand : PlainExpression operand) (hunary : operand.inner.isOperand = true)
      (hplace : operator.isStep = true → operand.inner.isPlace = true) :
      PlainExpression (.located (.unary operator operand) span source)
  | binary {span : Span} {source : String} {left : Node .expression} {operator : BinaryOperator}
      {right : Node .expression} (hleft : PlainExpression left) (hright : PlainExpression right)
      (hbinds : left.inner.BindsAtLeast operator.precedence)
      (hbinds' : right.inner.BindsAtLeast (operator.precedence + 1))
      (hcomparison : left.inner.precedence? = some instanceOfPrecedence →
        operator.precedence ≠ instanceOfPrecedence) :
      PlainExpression (.located (.binary left operator right) span source)
  | conditional {span : Span} {source : String} {condition thenValue elseValue : Node .expression}
      (hcondition : PlainExpression condition) (hthen : PlainExpression thenValue)
      (helse : PlainExpression elseValue) (hloose : condition.inner.isLoose = false)
      (hassignment : elseValue.inner.isAssignment = false) :
      PlainExpression (.located (.conditional condition thenValue elseValue) span source)
  | assignment {span : Span} {source : String} {target : Node .expression}
      {operator : AssignmentOperator} {value : Node .expression} (htarget : PlainExpression target)
      (hvalue : PlainExpression value) (hassignment : target.inner.isAssignment = false) :
      PlainExpression (.located (.assignment target operator value) span source)

namespace PlainExpression

variable {e : Node .expression} {next : CharClass}

/-! ### Printing -/

/-- The gap behind an operator is a blank or nothing. -/
theorem writes_gap (operator : UnaryOperator) (operand : Tree .expression) :
    Print.Writes (Print.text (Tree.operatorGap operator operand)) (Tree.gap operator operand) := by
  unfold Tree.operatorGap Tree.gap
  split
  · exact .text " " _ rfl
  · exact .text "" _ rfl

/-- The symbol of a kind writes its sign. -/
theorem writes_sign (kind : TokenKind) {symbol : String}
    (hsymbol : symbol = (Word.sign kind).text) :
    Print.Writes (Print.text symbol) [.word (.sign kind)] := by
  refine .text symbol _ ?_
  rw [hsymbol]
  exact (List.append_nil _).symm

/-- An operator is written between its operands with blanks around it. -/
theorem writes_between {kind : TokenKind} {symbol : String}
    (hsymbol : symbol = (Word.sign kind).text) {p q : Print} {ps qs : List Piece}
    (hp : p.Writes ps) (hq : q.Writes qs) :
    Print.Writes (Print.all [p, Print.text " ", Print.text symbol, Print.text " ", q])
      (ps ++ (Tree.between kind ++ qs)) := by
  have hall := Print.Writes.all_cons hp (.all_cons (.text " " [.blank] rfl)
    (.all_cons (writes_sign kind hsymbol) (.all_cons (.text " " [.blank] rfl)
      (.all_cons hq .all_nil))))
  rw [List.append_nil] at hall
  exact hall

/-- An operator with one operand is printed before or behind it, as its sort demands. -/
theorem print_unary (operator : UnaryOperator) (operand : Node .expression) :
    (Tree.unary operator operand).print =
      if operator.isPostfix then Print.all [operand.print, Print.text operator.symbol]
      else Print.all [Print.text operator.symbol,
        Print.text (Tree.operatorGap operator operand.inner), operand.print] := rfl

/-- An operator with one operand has its sign before or behind the pieces of the operand. -/
theorem pieces_unary (operator : UnaryOperator) (operand : Node .expression) :
    (Tree.unary operator operand).pieces =
      if operator.isPostfix then operand.pieces ++ [.word (.sign operator.token)]
      else .word (.sign operator.token) ::
        (Tree.gap operator operand.inner ++ operand.pieces) := rfl

/-- An expression is written as its pieces. -/
theorem writes (h : PlainExpression e) : Print.Writes e.print e.pieces := by
  induction h with
  | @name span source name hname => exact .name name
  | @literal span source l hdecimal => exact .text l.text _ (List.append_nil _).symm
  | parenthesized hexpression ih =>
    have hall := Print.Writes.all_cons (.text "(" [.word (.sign .leftParen)] rfl)
      (.all_cons ih (.all_cons (.text ")" [.word (.sign .rightParen)] rfl) .all_nil))
    exact hall
  | @unary span source operator operand hoperand hunary hplace ih =>
    have hsymbol : operator.symbol = (Word.sign operator.token).text := by cases operator <;> rfl
    change Print.Writes (Tree.unary operator operand).print (Tree.unary operator operand).pieces
    rw [print_unary, pieces_unary]
    split
    · have hall := Print.Writes.all_cons ih (.all_cons (writes_sign _ hsymbol) .all_nil)
      rw [List.append_nil] at hall
      exact hall
    · have hall := Print.Writes.all_cons (writes_sign _ hsymbol)
        (.all_cons (writes_gap operator operand.inner) (.all_cons ih .all_nil))
      rw [List.append_nil] at hall
      exact hall
  | @binary span source left operator right hleft hright hbinds hbinds' hcomparison ihleft
      ihright =>
    have hsymbol : operator.symbol = (Word.sign operator.token).text := by cases operator <;> rfl
    exact writes_between hsymbol ihleft ihright
  | conditional hcondition hthen helse hloose hassignment ihcondition ihthen ihelse =>
    have hall := Print.Writes.all_cons ihcondition
      (.all_cons (.text " ? " (Tree.between .question) rfl)
      (.all_cons ihthen (.all_cons (.text " : " (Tree.between .colon) rfl)
        (.all_cons ihelse .all_nil))))
    rw [List.append_nil] at hall
    exact hall
  | @assignment span source target operator value htarget hvalue hassignment ihtarget ihvalue =>
    have hsymbol : operator.symbol = (Word.sign operator.token).text := by cases operator <;> rfl
    exact writes_between hsymbol ihtarget ihvalue

end PlainExpression

/-! ### Reading -/

/-- Whether a token may only stand between operands or between them and a colon. -/
def TokenKind.isInfix (kind : TokenKind) : Bool :=
  kind.isOperator && match kind with
    | .bang | .tilde | .arrow | .plusPlus | .minusMinus | .colonColon => false
    | _ => true

/-- Binary operators stand between operands. -/
theorem BinaryOperator.isInfix_token (operator : BinaryOperator) :
    operator.token.isInfix = true := by
  cases operator <;> rfl

/-- Assignment operators stand between operands. -/
theorem AssignmentOperator.isInfix_token (operator : AssignmentOperator) :
    operator.token.isInfix = true := by
  cases operator <;> rfl

/-- Whether an operand may start with a character. -/
def CharClass.startsOperand (c : CharClass) : Bool :=
  c.startsIdentifier || c.isDigit || match c with
    | .leftParen | .plus | .minus | .bang | .tilde => true
    | _ => false

namespace PlainExpression

open Piece (leading Legible)

/-- Before a blank, an operator between operands is read as itself. -/
theorem readBefore_betweenOperands {kind : TokenKind} (h : kind.isInfix = true) :
    (Word.sign kind).ReadBefore .space := by
  apply Word.readBefore_sign
  · cases kind <;> first | rfl | cases h
  · cases kind <;> first | rfl | cases h

/-- The operator between two operands is read as itself. -/
theorem legible_between {kind : TokenKind} (h : kind.isInfix = true) {ps : List Piece}
    (hps : Legible ps next) (hfirst : (leading ps next).startsOperand = true) :
    Legible (Tree.between kind ++ ps) next := by
  refine ⟨?_, readBefore_betweenOperands h, ?_, hps⟩
  · have hclass : CharClass.ofChar ((Word.sign kind).text.toList.headD ' ') ≠ .space := by
      cases kind <;> first | decide | cases h
    have hleading : leading (.word (.sign kind) :: .blank :: ps) next =
        CharClass.ofChar ((Word.sign kind).text.toList.headD ' ') := by
      cases kind <;> first | rfl | cases h
    rw [← hleading] at hclass
    exact hclass
  · intro hspace
    change leading ps next = .space at hspace
    rw [hspace] at hfirst
    cases hfirst

/-- An expression starts with what an operand may start with. -/
theorem startsOperand_leading (h : PlainExpression e) (next : CharClass) :
    (leading e.pieces next).startsOperand = true := by
  induction h generalizing next with
  | @name span source name hname =>
    have hstart := Piece.startsIdentifier_leading (w := .name name)
      (Bool.and_eq_true_iff.mp hname).1 [] next
    exact Bool.or_eq_true_iff.mpr (.inl (Bool.or_eq_true_iff.mpr (.inl hstart)))
  | @literal span source l hdecimal =>
    have hstart := Piece.isDigit_leading hdecimal [] next
    exact Bool.or_eq_true_iff.mpr (.inl (Bool.or_eq_true_iff.mpr (.inr hstart)))
  | parenthesized => rfl
  | @unary span source operator operand hoperand hunary hplace ih =>
    change (leading (Tree.unary operator operand).pieces next).startsOperand = true
    rw [pieces_unary]
    split
    · rw [Piece.leading_append]
      exact ih _
    · cases operator <;> rfl
  | binary hleft hright hbinds hbinds' hcomparison ihleft ihright =>
    change (leading (_ ++ _) next).startsOperand = true
    rw [Piece.leading_append]
    exact ihleft _
  | conditional hcondition hthen helse hloose hassignment ihcondition ihthen ihelse =>
    change (leading (_ ++ _) next).startsOperand = true
    rw [Piece.leading_append]
    exact ihcondition _
  | assignment htarget hvalue hassignment ihtarget ihvalue =>
    change (leading (_ ++ _) next).startsOperand = true
    rw [Piece.leading_append]
    exact ihtarget _

/-- The first characters of the operators that may stand before an operand. -/
def operatorChars : List Char := ['+', '-', '!', '~']

/-- What holds of the four characters that prefix operators start with. -/
theorem forall_mem_operatorChars {P : Char → Prop} (h : P '+' ∧ P '-' ∧ P '!' ∧ P '~') :
    ∀ c ∈ operatorChars, P c := by
  simpa [operatorChars] using h

/-- These characters start neither identifiers nor numbers, and are no parenthesis. -/
theorem class_of_mem_operatorChars : ∀ c ∈ operatorChars,
    (CharClass.ofChar c).startsIdentifier = false ∧ (CharClass.ofChar c).isDigit = false ∧
      CharClass.leftParen ≠ .ofChar c :=
  forall_mem_operatorChars (by decide)

/-- These characters are told apart by their classes. -/
theorem eq_of_ofChar_eq : ∀ c ∈ operatorChars, ∀ d ∈ operatorChars,
    CharClass.ofChar c = .ofChar d → c = d := by
  refine forall_mem_operatorChars ⟨?_, ?_, ?_, ?_⟩
  all_goals exact forall_mem_operatorChars (by decide)

/-- A place starts with no operator. -/
theorem leading_ne_of_isPlace (h : PlainExpression e) (hplace : e.inner.isPlace = true) {c : Char}
    (hc : c ∈ operatorChars) (next : CharClass) : leading e.pieces next ≠ .ofChar c := by
  obtain ⟨hletter, -, hparen⟩ := class_of_mem_operatorChars c hc
  cases h with
  | @name span source name hname =>
    have hstart := Piece.startsIdentifier_leading (w := .name name)
      (Bool.and_eq_true_iff.mp hname).1 [] next
    intro hleading
    change leading [.word (.name name)] next = _ at hleading
    rw [hleading, hletter] at hstart
    cases hstart
  | parenthesized => exact hparen
  | literal => cases hplace
  | unary => cases hplace
  | binary => cases hplace
  | conditional => cases hplace
  | assignment => cases hplace

/-- An operand that starts with a character of an operator starts with the operator. -/
theorem startsWithOperator_of_leading (h : PlainExpression e) (hoperand : e.inner.isOperand = true)
    {c : Char} (hc : c ∈ operatorChars) (hleading : leading e.pieces next = .ofChar c) :
    Tree.startsWithOperator c e.inner = true := by
  cases h with
  | name hname => exact absurd hleading (leading_ne_of_isPlace (.name hname) rfl hc next)
  | @literal span source l hdecimal =>
    have hstart := Piece.isDigit_leading hdecimal [] next
    change leading [.word (.literal l)] next = _ at hleading
    rw [hleading, (class_of_mem_operatorChars c hc).2.1] at hstart
    cases hstart
  | parenthesized hexpression =>
    exact absurd hleading (leading_ne_of_isPlace (.parenthesized hexpression) rfl hc next)
  | @unary span source operator operand hinner hunary hplace =>
    change leading (Tree.unary operator operand).pieces next = _ at hleading
    rw [pieces_unary] at hleading
    by_cases hafter : operator.isPostfix = true
    · rw [if_pos hafter, Piece.leading_append] at hleading
      have hstep : operator.isStep = true := by cases operator <;> first | rfl | cases hafter
      exact absurd hleading (leading_ne_of_isPlace hinner (hplace hstep) hc _)
    · rw [if_neg hafter] at hleading
      have hhead : ∀ d ∈ operatorChars, operator.symbol.toList.head? = some d →
          CharClass.ofChar d = .ofChar c →
          Tree.startsWithOperator c (.unary operator operand) = true := by
        intro d hd hhead hclass
        obtain rfl := eq_of_ofChar_eq d hd c hc hclass
        rw [Tree.startsWithOperator, hhead]
        simp [hafter]
      cases operator <;>
        first
        | exact hhead '+' (by decide) rfl hleading
        | exact hhead '-' (by decide) rfl hleading
        | exact hhead '!' (by decide) rfl hleading
        | exact hhead '~' (by decide) rfl hleading
  | binary => cases hoperand
  | conditional => cases hoperand
  | assignment => cases hoperand

/-- An operator before an operand is read as itself if it cannot be read together with what
comes next. -/
theorem readBefore_beforeOperand {operator : UnaryOperator} (hbefore : operator.isPostfix = false)
    (hnext : next.startsOperand = true ∨ next = .space)
    (hapart : ∀ c, operator.symbol.toList.head? = some c → next ≠ .ofChar c) :
    (Word.sign operator.token).ReadBefore next := by
  have hplus : operator = .plus → next ≠ .plus := by
    rintro rfl
    exact hapart '+' rfl
  have hminus : operator = .minus → next ≠ .minus := by
    rintro rfl
    exact hapart '-' rfl
  apply Word.readBefore_sign
  · cases operator <;> rfl
  · rcases hnext with hnext | rfl
    · cases operator <;> cases next <;>
        first
        | rfl
        | cases hbefore; done
        | cases hnext; done
        | exact absurd rfl (hplus rfl)
        | exact absurd rfl (hminus rfl)
    · cases operator <;> rfl

/-- An operator behind its operand is read as itself before anything. -/
theorem readBefore_afterOperand {operator : UnaryOperator} (hafter : operator.isPostfix = true)
    (next : CharClass) : (Word.sign operator.token).ReadBefore next := by
  cases operator <;> first | exact Word.readBefore_sign rfl rfl | cases hafter

/-- Operators with one operand start with one of the four characters. -/
theorem head_mem_operatorChars {operator : UnaryOperator} {c : Char}
    (h : operator.symbol.toList.head? = some c) : c ∈ operatorChars := by
  cases operator <;> obtain rfl := Option.some.inj h <;> decide

/-- Where no blank stands after an operator, its operand starts with another character. -/
theorem leading_ne_of_gap {operator : UnaryOperator} (h : PlainExpression e)
    (hoperand : e.inner.isOperand = true) (hgap : Tree.gap operator e.inner = []) {c : Char}
    (hc : operator.symbol.toList.head? = some c) (next : CharClass) :
    leading e.pieces next ≠ .ofChar c := by
  intro hleading
  have hstarts := h.startsWithOperator_of_leading hoperand (head_mem_operatorChars hc) hleading
  rw [Tree.gap, hc, Option.any_some, hstarts, if_pos rfl] at hgap
  cases hgap

/-- An operator before its operand is read as itself, with a blank where one is needed. -/
theorem legible_beforeOperand {operator : UnaryOperator} (hbefore : operator.isPostfix = false)
    (h : PlainExpression e) (hoperand : e.inner.isOperand = true) (he : Legible e.pieces next) :
    Legible (.word (.sign operator.token) :: (Tree.gap operator e.inner ++ e.pieces)) next := by
  have hstarts := h.startsOperand_leading next
  by_cases hgap : Tree.gap operator e.inner = []
  · rw [hgap]
    exact ⟨readBefore_beforeOperand hbefore (.inl hstarts) fun c hc =>
      leading_ne_of_gap h hoperand hgap hc next, he⟩
  · have hblank : Tree.gap operator e.inner = [.blank] := by
      unfold Tree.gap at hgap ⊢
      split
      · rfl
      · rename_i hnone
        exact absurd (if_neg hnone) hgap
    rw [hblank]
    refine ⟨readBefore_beforeOperand hbefore (.inr rfl) ?_, ?_, he⟩
    · intro c hc
      have hspace : ∀ d ∈ operatorChars, CharClass.space ≠ .ofChar d :=
        forall_mem_operatorChars (by decide)
      exact hspace c (head_mem_operatorChars hc)
    · intro hspace
      change leading e.pieces next = .space at hspace
      rw [hspace] at hstarts
      cases hstarts

/-- An expression is read as itself before a character that ends an operand, and one that may
be stepped also before the sign for it. -/
theorem legible (h : PlainExpression e) (hnext : next.endsOperand = true ∨
    e.inner.isPlace = true ∧ (next = .plus ∨ next = .minus)) : Legible e.pieces next := by
  induction h generalizing next with
  | @name span source name hname =>
    have hfree : next.continuesIdentifier = false := by
      rcases hnext with hnext | ⟨-, rfl | rfl⟩
      · cases next <;> first | rfl | cases hnext
      · rfl
      · rfl
    exact ⟨Word.readBefore_name hname hfree, trivial⟩
  | @literal span source l hdecimal =>
    exact ⟨Word.readBefore_literal hdecimal (hnext.resolve_right nofun), trivial⟩
  | parenthesized hexpression ih =>
    exact ⟨Word.readBefore_sign rfl rfl,
      (ih (.inl rfl)).append ⟨Word.readBefore_sign rfl rfl, trivial⟩⟩
  | @unary span source operator operand hoperand hunary hplace ih =>
    change Legible (Tree.unary operator operand).pieces next
    rw [pieces_unary]
    split
    · rename_i hafter
      have hstep : operator.isStep = true := by cases operator <;> first | rfl | cases hafter
      refine (ih (.inr ⟨hplace hstep, ?_⟩)).append ⟨readBefore_afterOperand hafter _, trivial⟩
      cases operator <;> first | exact .inl rfl | exact .inr rfl | cases hafter
    · rename_i hafter
      have hbefore := eq_false_of_ne_true hafter
      exact legible_beforeOperand hbefore hoperand hunary (ih (.inl (hnext.resolve_right nofun)))
  | @binary span source left operator right hleft hright hbinds hbinds' hcomparison ihleft
      ihright =>
    exact (ihleft (.inl rfl)).append (legible_between operator.isInfix_token
      (ihright (.inl (hnext.resolve_right nofun))) (hright.startsOperand_leading next))
  | @conditional span source condition thenValue elseValue hcondition hthen helse hloose hassignment
      ihcondition ihthen ihelse =>
    have hvalue : Legible (Tree.between .colon ++ elseValue.pieces) next :=
      legible_between rfl (ihelse (.inl (hnext.resolve_right nofun)))
        (helse.startsOperand_leading next)
    have hvalues := Legible.append (ihthen (.inl rfl)) hvalue
    refine (ihcondition (.inl rfl)).append (legible_between rfl hvalues ?_)
    rw [Piece.leading_append]
    exact hthen.startsOperand_leading _
  | @assignment span source target operator value htarget hvalue hassignment ihtarget ihvalue =>
    exact (ihtarget (.inl rfl)).append (legible_between operator.isInfix_token
      (ihvalue (.inl (hnext.resolve_right nofun))) (hvalue.startsOperand_leading next))

/-- The canonical text of an expression is made of its pieces. -/
theorem toList_canonical (h : PlainExpression e) : e.canonical.toList = Piece.spelling e.pieces :=
  have hlegible : Legible e.pieces .endOfText := h.legible (.inl rfl)
  h.writes.run_eq hlegible.newline_notMem

end PlainExpression

end JavaSyntax
