import JavaSyntax.Proofs.Syntax.OperandsAhead

/-!
# Reading expressions of operators

From the words of such an expression the grammar comes back to the expression itself, if the
word behind it does not go on with it. How strongly that word may pull depends on where the
expression stands: the operand of an operator goes on with no operator that binds as tight, and
a whole expression goes on with nothing. The statement about one level of the grammar is that
for what is nested inside; the level around takes it from there.
-/

namespace JavaSyntax

open JavaSyntax.Parser JavaSyntax.Grammar

/-! ### What may follow an expression -/

/-- How strongly a token goes on with an expression before it: not at all, as an assignment, as
a conditional, as an operation by its binding power, or with its last operand. -/
def TokenKind.pull : TokenKind → Nat
  | .rightParen | .colon | .endOfInput => 0
  | .question => 2
  | kind =>
    if (AssignmentOperator.ofToken? kind).isSome then 1
    else (BinaryOperator.ofToken? kind).elim 13 (·.precedence + 2)

namespace TokenKind

variable {kind : TokenKind}

/-- An assignment pulls more weakly than everything else that goes on. -/
theorem pull_assignment (operator : AssignmentOperator) : operator.token.pull = 1 := by
  cases operator <;> rfl

/-- An operator between operands pulls as strongly as it binds. -/
theorem pull_binary (operator : BinaryOperator) :
    operator.token.pull = operator.precedence + 2 := by
  cases operator <;> rfl

/-- What does not pull is no operator of an assignment. -/
theorem ofToken?_of_pull_eq_zero (h : kind.pull = 0) : AssignmentOperator.ofToken? kind = none := by
  cases kind <;> first | rfl | cases h

/-- A token that is read as an operator pulls as strongly as that binds. -/
theorem pull_of_ofToken? {operator : BinaryOperator}
    (h : BinaryOperator.ofToken? kind = some operator) : kind.pull = operator.precedence + 2 := by
  cases kind <;> cases h <;> rfl

end TokenKind

/-- An operator between operands is read back from its token. -/
theorem BinaryOperator.ofToken?_token (operator : BinaryOperator) :
    BinaryOperator.ofToken? operator.token = some operator := by
  cases operator <;> rfl

/-- An operator of an assignment is read back from its token. -/
theorem AssignmentOperator.ofToken?_token (operator : AssignmentOperator) :
    AssignmentOperator.ofToken? operator.token = some operator := by
  cases operator <;> rfl

/-- Some words are ahead in which operands and operators take turns. -/
structure Cursor.Awaits (x : Tokenized) (ws : List Word) (c : Cursor) : Prop where
  faces : c.Faces x ws
  admits : ∃ t : Turn, t.Admits ws

/-- A production reads the expressions of operators that are allowed to stand somewhere, up to a
token that pulls at most so much. -/
def ReadsExpressions (x : Tokenized) (allowed : Tree .expression → Prop) (limit : Nat)
    (p : Parser (Node .expression)) : Prop :=
  ∀ e, PlainExpression e → allowed e.inner → ∀ rest, (wordAt rest 0).kind.pull ≤ limit →
    ∀ s : ParserState, s.cursor.Awaits x (e.words ++ rest) →
      Reaches p s fun u c => u.bare = e.bare ∧ c.Awaits x rest

/-- A level of the grammar reads all expressions of operators. -/
structure Grammar.ReadsOperations (g : Grammar) (x : Tokenized) : Prop where
  expression : ReadsExpressions x (fun _ => True) 0 g.expression
  conditional : ReadsExpressions x (·.isAssignment = false) 1 g.conditional
  unary : ReadsExpressions x (·.isOperand = true) 12 g.unary

namespace PlainExpression

variable {x : Tokenized} {s : ParserState} {g : Grammar} {e : Node .expression} {w : Word}
  {ws rest : List Word}

/-! ### Single words -/

/-- Behind a word the turns go on. -/
theorem awaits_tail {c c' : Cursor} (h : c.Awaits x (w :: ws)) (hc : c'.Faces x ws) :
    c'.Awaits x ws := by
  obtain ⟨t, hadmits⟩ := h.admits
  obtain ⟨t', -, hadmits⟩ := hadmits.cons
  exact ⟨hc, t', hadmits⟩

/-- A word that is passed leaves the rest, in which the turns go on. -/
theorem reaches_advance_turn (h : s.cursor.Awaits x (w :: ws)) (hw : w.kind ≠ .endOfInput) :
    Reaches advance s fun t c => t.word = w ∧ c.Awaits x ws :=
  (reaches_advance h.faces hw).mono fun _ _ ⟨hword, hc⟩ => ⟨hword, awaits_tail h hc⟩

/-- A decimal number may stand behind a minus sign or not. -/
theorem reaches_literal {l : LiteralText} (hl : l.IsDecimal) (negated : Bool)
    (h : s.cursor.Awaits x (.literal l :: rest)) :
    Reaches (Parser.literal negated) s fun u c => u = l ∧ c.Awaits x rest := by
  unfold Parser.literal
  refine .bind (reaches_currentKind h.faces) ?_
  rintro _ s' ⟨rfl, hfaces, -⟩
  change Reaches (peek 0 >>= _) s' _
  refine .bind (reaches_peek hfaces 0) ?_
  rintro token s' ⟨hword, hfaces, -⟩
  have hminus : needsMinus token = false := by
    have hkind : token.kind = .intLiteral := congrArg Word.kind hword
    have hvalue : token.value = l.value := congrArg Word.value hword
    have hcount : 0 < IntegerWidth.int.count / 2 := by decide
    rw [needsMinus, hkind, hvalue, hl.value_eq]
    apply beq_false_of_ne
    omega
  rw [hminus, Bool.and_false, if_neg Bool.false_ne_true]
  refine .bind (reaches_advance_turn ⟨hfaces, h.admits⟩ (by rintro ⟨⟩)) ?_
  rintro token s' ⟨hword, h⟩
  refine .pure ⟨?_, h⟩
  obtain ⟨kind, value, text⟩ := l
  obtain rfl : kind = .int := hl.kind_eq
  rw [show token.value = value from congrArg Word.value hword,
    show token.source = text from congrArg Word.text hword]

/-- A name is not taken for the beginning of a type. -/
theorem reaches_atTypePrimary (h : s.cursor.Awaits x ws) (next : TokenKind) :
    Reaches (atTypePrimary next) s fun b c => b = false ∧ c.Awaits x ws := by
  unfold atTypePrimary
  obtain ⟨t, hadmits⟩ := h.admits
  split
  · refine .bind (reaches_typePrimary? h.faces hadmits) ?_
    rintro _ s' ⟨rfl, hfaces⟩
    exact .pure ⟨rfl, hfaces, t, hadmits⟩
  · exact .pure ⟨rfl, h⟩

/-! ### Primary expressions -/

/-- Neither an arrow nor arguments come behind a name. -/
theorem reaches_namePrimary {name : String} (start : Nat)
    (h : s.cursor.Awaits x (.name name :: rest)) :
    Reaches (g.namePrimary start) s fun u c =>
      u.bare = .located (.simpleName name) .nowhere "" ∧ c.Awaits x rest := by
  unfold namePrimary
  obtain ⟨t, hadmits⟩ := h.admits
  obtain ⟨t', hnext, hrest⟩ := hadmits.cons
  have hwants : t'.wantsOperand = false := by
    cases t <;> cases hnext <;> rfl
  have hother (kind : TokenKind) (hnone : t'.next kind = none) (hend : kind ≠ .endOfInput) :
      ((wordAt rest 0).kind == kind) = false := beq_false_of_ne (hrest.kind_ne hnone hend)
  have harrow := hother .arrow (by cases t' <;> rfl) nofun
  have hparen := hother .leftParen (by cases t' <;> first | rfl | cases hwants) nofun
  refine .bind (reaches_peekKind h.faces 1) ?_
  rintro _ s' ⟨rfl, hfaces, -⟩
  rw [wordAt_cons_succ]
  refine .bind (Q := fun _ c => c.Awaits x (.name name :: rest))
    (.of_eq rfl ⟨hfaces, h.admits⟩) ?_
  rintro s'' s' h
  rw [harrow, Bool.false_and, if_neg nofun]
  refine .bind (reaches_atTypePrimary h _) ?_
  rintro _ s' ⟨rfl, h⟩
  refine .bind (reaches_expectIdentifier h.faces rfl) ?_
  rintro read s' ⟨hread, hfaces⟩
  change read = name at hread
  subst read
  refine .bind (reaches_check hfaces .leftParen) ?_
  rintro _ s' ⟨rfl, hfaces, -⟩
  rw [hparen]
  refine (reaches_node _ _).mono ?_
  rintro u c ⟨hu, rfl⟩
  exact ⟨hu, hfaces, t', hrest⟩

/-- An expression in parentheses is read if expressions are. -/
theorem reaches_parenthesized {expression : Node .expression} (hg : g.ReadsOperations x)
    (hexpression : PlainExpression expression) (start : Nat)
    (h : s.cursor.Awaits x ((Tree.parenthesized expression).words ++ rest)) :
    Reaches (g.parenthesized start) s fun u c =>
      u.bare = .located (.parenthesized expression.bare) .nowhere "" ∧ c.Awaits x rest := by
  rw [Tree.words_parenthesized, List.cons_append, List.append_assoc] at h
  unfold Grammar.parenthesized
  refine .bind (reaches_advance_turn h nofun) ?_
  rintro token s' ⟨-, h⟩
  have hinner := hg.expression expression hexpression trivial (.sign .rightParen :: rest)
    (Nat.le_refl 0) { s' with lambdas := true } h
  refine .bind (.withLambdas true hinner) ?_
  rintro u s' ⟨hu, h⟩
  refine .bind (reaches_expect h.faces rfl nofun) ?_
  rintro token s' ⟨-, hfaces⟩
  refine (reaches_node _ _).mono ?_
  rintro v c ⟨hv, rfl⟩
  refine ⟨hv.trans ?_, awaits_tail h hfaces⟩
  change Tree.located (.parenthesized u.bare) _ _ = _
  rw [hu]

/-- Names, numbers and parentheses are primary expressions. -/
theorem reaches_primary (hg : g.ReadsOperations x) (he : PlainExpression e)
    (hprimary : e.inner.isPlace = true ∨ ∃ l, e.inner = .literal l)
    (h : s.cursor.Awaits x (e.words ++ rest)) :
    Reaches g.primary s fun u c => u.bare = e.bare ∧ c.Awaits x rest := by
  unfold primary
  cases he with
  | @name span source name hname =>
    refine .position (.bind (reaches_currentKind h.faces) ?_)
    rintro _ s' ⟨rfl, hfaces, -⟩
    exact reaches_namePrimary _ ⟨hfaces, h.admits⟩
  | @literal span source l hdecimal =>
    refine .position (.bind (reaches_currentKind h.faces) ?_)
    rintro _ s' ⟨rfl, hfaces, -⟩
    refine .bind (reaches_literal hdecimal false ⟨hfaces, h.admits⟩) ?_
    rintro _ s' ⟨rfl, hrest⟩
    refine (reaches_node _ _).mono ?_
    rintro v c ⟨hv, rfl⟩
    exact ⟨hv, hrest⟩
  | @parenthesized span source expression hexpression =>
    refine .position (.bind (reaches_currentKind h.faces) ?_)
    rintro _ s' ⟨rfl, hfaces, -⟩
    exact reaches_parenthesized hg hexpression _ ⟨hfaces, h.admits⟩
  | unary => rcases hprimary with hplace | ⟨l, hl⟩ <;> contradiction
  | binary => rcases hprimary with hplace | ⟨l, hl⟩ <;> contradiction
  | conditional => rcases hprimary with hplace | ⟨l, hl⟩ <;> contradiction
  | assignment => rcases hprimary with hplace | ⟨l, hl⟩ <;> contradiction

/-! ### Selectors -/

/-- A token that does not go on with an operand is no selector. -/
theorem reaches_selector_none (start : Nat) (target : Node .expression)
    (hrest : (wordAt rest 0).kind.pull ≤ 12) (h : s.cursor.Awaits x rest) :
    Reaches (g.selector start target) s fun r c => r = .done target ∧ c.Awaits x rest := by
  unfold selector
  refine .bind (reaches_currentKind h.faces) ?_
  rintro _ s' ⟨rfl, hfaces, -⟩
  generalize (wordAt rest 0).kind = kind at hrest
  have hnone : UnaryOperator.afterOperand? kind = none := by
    cases kind <;> first | rfl | exact absurd hrest (by decide)
  split
  · exact absurd hrest (by decide)
  · exact absurd hrest (by decide)
  · exact absurd hrest (by decide)
  · rw [hnone]
    exact .pure ⟨rfl, hfaces, h.admits⟩

/-- An operator behind an operand is a selector. -/
theorem reaches_selector_step {operator : UnaryOperator} (hbehind : operator.isPostfix = true)
    (start : Nat) (target : Node .expression)
    (h : s.cursor.Awaits x (.sign operator.token :: rest)) :
    Reaches (g.selector start target) s fun r c => ∃ u, r = .again u ∧
      u.bare = .located (.unary operator target.bare) .nowhere "" ∧ c.Awaits x rest := by
  unfold selector
  refine .bind (reaches_currentKind h.faces) ?_
  rintro _ s' ⟨rfl, hfaces, -⟩
  have hend : operator.token ≠ .endOfInput := by cases operator <;> exact nofun
  have hread : Reaches (advance >>= fun _ => node start (.unary operator target) >>= fun u =>
      pure (Step.again u : Step (Node .expression) (Node .expression))) s' fun r c =>
        ∃ u, r = .again u ∧ u.bare = .located (.unary operator target.bare) .nowhere "" ∧
          c.Awaits x rest := by
    refine .bind (reaches_advance_turn ⟨hfaces, h.admits⟩ hend) ?_
    rintro token s' ⟨-, h⟩
    refine .bind (reaches_node _ _) ?_
    rintro u s'' ⟨hu, hcursor⟩
    refine .pure ⟨u, rfl, hu, ?_⟩
    rw [hcursor]
    exact h
  cases operator <;> first | exact hread | cases hbehind

/-- Primary expressions are read as far as nothing goes on with them. -/
theorem reaches_postfixExpression (hg : g.ReadsOperations x) (he : PlainExpression e)
    (hprimary : e.inner.isPlace = true ∨ ∃ l, e.inner = .literal l) (start : Nat)
    (hrest : (wordAt rest 0).kind.pull ≤ 12) (h : s.cursor.Awaits x (e.words ++ rest)) :
    Reaches (g.postfixExpression start) s fun u c => u.bare = e.bare ∧ c.Awaits x rest := by
  unfold postfixExpression
  refine .bind (reaches_primary hg he hprimary h) ?_
  rintro u s' ⟨hu, h⟩
  refine .loop (n := 0) (I := fun _ a c => a.bare = e.bare ∧ c.Awaits x rest) ⟨hu, h⟩
    (Nat.succ_pos _) ?_
  rintro n a s'' ⟨ha, h⟩
  refine (reaches_selector_none start a hrest h).mono ?_
  rintro _ c ⟨rfl, h⟩
  exact ⟨ha, h⟩

/-- An operator behind a name or parentheses is read with them. -/
theorem reaches_stepped {operator : UnaryOperator} (hbehind : operator.isPostfix = true)
    (hg : g.ReadsOperations x) (he : PlainExpression e) (hplace : e.inner.isPlace = true)
    (start : Nat) (hrest : (wordAt rest 0).kind.pull ≤ 12)
    (h : s.cursor.Awaits x (e.words ++ .sign operator.token :: rest)) :
    Reaches (g.postfixExpression start) s fun u c =>
      u.bare = .located (.unary operator e.bare) .nowhere "" ∧ c.Awaits x rest := by
  unfold postfixExpression
  refine .bind (reaches_primary hg he (.inl hplace) h) ?_
  rintro u s' ⟨hu, h⟩
  have hbound : 1 < loopBound s' := by
    have hlength := h.faces.length_le
    rw [← h.faces.on.text_eq, List.length_cons] at hlength
    exact Nat.lt_succ_of_le (by omega)
  refine .loop (n := 1) (I := fun n a c =>
    n = 1 ∧ a.bare = e.bare ∧ c.Awaits x (.sign operator.token :: rest) ∨
      n = 0 ∧ a.bare = .located (.unary operator e.bare) .nowhere "" ∧ c.Awaits x rest)
    (.inl ⟨rfl, hu, h⟩) hbound ?_
  rintro n a s'' (⟨rfl, ha, h⟩ | ⟨rfl, ha, h⟩)
  · refine (reaches_selector_step hbehind start a h).mono ?_
    rintro _ c ⟨v, rfl, hv, h⟩
    refine ⟨0, Nat.zero_lt_one, .inr ⟨rfl, ?_, h⟩⟩
    rw [hv, ha]
  · refine (reaches_selector_none start a hrest h).mono ?_
    rintro _ c ⟨rfl, h⟩
    exact ⟨ha, h⟩

/-! ### Operands -/

/-- What starts with a parenthesis is read as a primary expression. -/
theorem reaches_parenExpression {us : List Word} {Q : Node .expression → Cursor → Prop}
    (start : Nat) (h : s.cursor.Awaits x (w :: us))
    (hthen : ∀ s : ParserState, s.cursor.Awaits x (w :: us) →
      Reaches (g.postfixExpression start) s Q) :
    Reaches (g.parenExpression start) s Q := by
  unfold parenExpression
  obtain ⟨t, hadmits⟩ := h.admits
  refine .bind (reaches_classifyParen h.faces hadmits) ?_
  rintro _ s' ⟨rfl, hfaces⟩
  rw [if_neg nofun]
  refine .bind (Q := fun _ c => c.Awaits x (w :: us)) (.of_eq rfl ⟨hfaces, h.admits⟩) ?_
  rintro s'' s' h
  rw [show ParenKind.parenthesized.isLambda = false from rfl, Bool.false_and, if_neg nofun]
  exact hthen s' h

/-- A minus sign before the digits of an integer is seen without passing anything. -/
theorem reaches_atNegativeLiteral (h : s.cursor.Awaits x ws) :
    Reaches (atNegativeLiteral (wordAt ws 0).kind) s fun b c =>
      b = ((wordAt ws 0).kind == .minus && (wordAt ws 1).kind == .intLiteral) ∧
        c.Awaits x ws := by
  unfold atNegativeLiteral
  split
  · rename_i hminus
    obtain ⟨t, hadmits⟩ := h.admits
    have hlong : ((wordAt ws 1).kind == .longLiteral) = false :=
      TokenKind.beq_false_of_bool (hadmits.takesTurns_wordAt 1) rfl
    refine .bind (reaches_peekKind h.faces 1) ?_
    rintro _ s' ⟨rfl, hfaces, -⟩
    refine .pure ⟨?_, hfaces, h.admits⟩
    rw [hminus, hlong, Bool.or_false, beq_self_eq_true, Bool.true_and]
  · rename_i hminus
    refine .pure ⟨?_, h⟩
    rw [beq_false_of_ne hminus, Bool.false_and]

/-- Without an operator before it, an operand starts as a primary expression does. -/
theorem reaches_unaryBody_primary {us : List Word} {Q : Node .expression → Cursor → Prop}
    (hw : w.kind = .identifier ∨ w.kind = .intLiteral ∨ w.kind = .leftParen)
    (h : s.cursor.Awaits x (w :: us))
    (hthen : ∀ (start : Nat) (s : ParserState), s.cursor.Awaits x (w :: us) →
      Reaches (g.postfixExpression start) s Q) :
    Reaches g.unaryBody s Q := by
  unfold unaryBody
  refine .position (.bind (reaches_currentKind h.faces) ?_)
  rintro _ s' ⟨rfl, hfaces, -⟩
  refine .bind (reaches_atNegativeLiteral ⟨hfaces, h.admits⟩) ?_
  rintro _ s' ⟨rfl, h⟩
  rw [wordAt_cons_zero]
  rcases hw with hw | hw | hw
  · rw [hw]
    exact hthen _ s' h
  · rw [hw]
    exact hthen _ s' h
  · rw [hw]
    exact reaches_parenExpression _ h (hthen _)

/-- A place starts with a name or a parenthesis. -/
theorem exists_words_of_isPlace (he : PlainExpression e) (hplace : e.inner.isPlace = true) :
    ∃ w us, e.words = w :: us ∧ (w.kind = .identifier ∨ w.kind = .leftParen) := by
  cases he with
  | name => exact ⟨_, _, rfl, .inl rfl⟩
  | @parenthesized span source expression =>
    exact ⟨_, _, Tree.words_parenthesized expression, .inr rfl⟩
  | literal => cases hplace
  | unary => cases hplace
  | binary => cases hplace
  | conditional => cases hplace
  | assignment => cases hplace

/-- An operand that starts with a number is this number. -/
theorem exists_literal_of_wordAt (he : PlainExpression e) (hoperand : e.inner.isOperand = true)
    (hfirst : (wordAt (e.words ++ rest) 0).kind = .intLiteral) : ∃ l, e.inner = .literal l := by
  cases he with
  | name => cases hfirst
  | @literal span source l => exact ⟨l, rfl⟩
  | parenthesized => cases hfirst
  | @unary span source operator operand hinner hunary hplace =>
    change (wordAt ((Tree.unary operator operand).words ++ rest) 0).kind = _ at hfirst
    rw [Tree.words_unary] at hfirst
    split at hfirst
    · rename_i hbehind
      have hstep : operator.isStep = true := by cases operator <;> first | rfl | cases hbehind
      obtain ⟨w, us, hwords, hw⟩ := exists_words_of_isPlace hinner (hplace hstep)
      rw [hwords] at hfirst
      change w.kind = _ at hfirst
      rcases hw with hw | hw <;> rw [hw] at hfirst <;> cases hfirst
    · cases operator <;> cases hfirst
  | binary => cases hoperand
  | conditional => cases hoperand
  | assignment => cases hoperand

/-- A minus sign and a decimal literal are read as the operator on the literal. -/
theorem reaches_negativeLiteral {l : LiteralText} (hl : l.IsDecimal) (start : Nat)
    (h : s.cursor.Awaits x (.sign .minus :: .literal l :: rest)) :
    Reaches (negativeLiteral start) s fun u c =>
      u.bare = .located (.unary .minus (.located (.literal l) .nowhere "")) .nowhere "" ∧
        c.Awaits x rest := by
  unfold negativeLiteral
  refine .bind (reaches_advance_turn h nofun) ?_
  rintro token s' ⟨-, h⟩
  refine .position (.bind (reaches_literal hl true h) ?_)
  rintro _ s' ⟨rfl, hrest⟩
  refine .bind (reaches_node _ _) ?_
  rintro u s'' ⟨hu, hcursor⟩
  refine (reaches_node _ _).mono ?_
  rintro v c ⟨hv, rfl⟩
  refine ⟨hv.trans ?_, hcursor ▸ hrest⟩
  change Tree.located (.unary .minus u.bare) _ _ = _
  rw [hu]
  rfl

/-- An operator before an operand is read before the operand. A minus sign before a number is
read together with it, which comes to the same. -/
theorem reaches_operator {operator : UnaryOperator} (hahead : operator.isPostfix = false)
    (hg : g.ReadsOperations x) (he : PlainExpression e) (hoperand : e.inner.isOperand = true)
    (hrest : (wordAt rest 0).kind.pull ≤ 12)
    (h : s.cursor.Awaits x (.sign operator.token :: (e.words ++ rest))) :
    Reaches g.unaryBody s fun u c =>
      u.bare = .located (.unary operator e.bare) .nowhere "" ∧ c.Awaits x rest := by
  unfold unaryBody
  refine .position (.bind (reaches_currentKind h.faces) ?_)
  rintro _ s' ⟨rfl, hfaces, -⟩
  refine .bind (reaches_atNegativeLiteral ⟨hfaces, h.admits⟩) ?_
  rintro _ s' ⟨rfl, h⟩
  rw [wordAt_cons_zero, wordAt_cons_succ]
  split
  · rename_i hnegative
    simp only [Bool.and_eq_true, beq_iff_eq] at hnegative
    obtain ⟨hminus, hnumber⟩ := hnegative
    obtain rfl : operator = .minus := by
      cases operator <;> first | rfl | cases hminus
    obtain ⟨l, hl⟩ := exists_literal_of_wordAt he hoperand hnumber
    cases he with
    | literal hdecimal => exact reaches_negativeLiteral hdecimal _ h
    | name => cases hl
    | parenthesized => cases hl
    | unary => cases hl
    | binary => cases hl
    | conditional => cases hl
    | assignment => cases hl
  · have hend : operator.token ≠ .endOfInput := by cases operator <;> exact nofun
    have hbefore : UnaryOperator.beforeOperand? operator.token = some operator := by
      cases operator <;> first | rfl | cases hahead
    rw [show (Word.sign operator.token).kind = operator.token from rfl, hbefore]
    refine .bind (reaches_advance_turn h hend) ?_
    rintro token s' ⟨-, h⟩
    refine .bind (hg.unary e he hoperand rest hrest s' h) ?_
    rintro u s' ⟨hu, h⟩
    refine (reaches_node _ _).mono ?_
    rintro v c ⟨hv, rfl⟩
    refine ⟨hv.trans ?_, h⟩
    change Tree.located (.unary operator u.bare) _ _ = _
    rw [hu]

/-- Operands are read with the operators before and behind them. -/
theorem reads_unaryBody (hg : g.ReadsOperations x) :
    ReadsExpressions x (·.isOperand = true) 12 g.unaryBody := by
  intro e he hoperand rest hrest s h
  cases he with
  | @name span source name hname =>
    exact reaches_unaryBody_primary (.inl rfl) h fun start s h =>
      reaches_postfixExpression hg (.name hname) (.inl rfl) start hrest h
  | @literal span source l hdecimal =>
    exact reaches_unaryBody_primary (.inr (.inl rfl)) h fun start s h =>
      reaches_postfixExpression hg (.literal hdecimal) (.inr ⟨l, rfl⟩) start hrest h
  | @parenthesized span source expression hexpression =>
    exact reaches_unaryBody_primary (.inr (.inr rfl)) h fun start s h =>
      reaches_postfixExpression hg (.parenthesized hexpression) (.inl rfl) start hrest h
  | @unary span source operator operand hinner hunary hplace =>
    change s.cursor.Awaits x ((Tree.unary operator operand).words ++ rest) at h
    rw [Tree.words_unary] at h
    split at h
    · rename_i hbehind
      have hstep : operator.isStep = true := by cases operator <;> first | rfl | cases hbehind
      obtain ⟨w, us, hwords, hw⟩ := exists_words_of_isPlace hinner (hplace hstep)
      rw [List.append_assoc, List.singleton_append] at h
      have hthen (start : Nat) (s : ParserState)
          (h : s.cursor.Awaits x (operand.words ++ .sign operator.token :: rest)) :=
        reaches_stepped hbehind hg hinner (hplace hstep) start hrest h
      rw [hwords] at h hthen
      exact reaches_unaryBody_primary (hw.imp_right .inr) h hthen
    · rename_i hahead
      exact reaches_operator (eq_false_of_ne_true hahead) hg hinner hunary hrest h
  | binary => cases hoperand
  | conditional => cases hoperand
  | assignment => cases hoperand

/-! ### Operations -/

/-- An operator that does not bind tight enough stays. -/
theorem reaches_binaryStep_done {operand : Nat → Parser (Node .expression)} {least : Nat}
    (start : Nat) (left : Node .expression) (hrest : (wordAt rest 0).kind.pull ≤ least + 1)
    (hleast : least ≤ 11) (h : s.cursor.Awaits x rest) :
    Reaches (g.binaryStep operand least start left) s fun r c =>
      r = .done left ∧ c.Awaits x rest := by
  unfold binaryStep
  refine .bind (reaches_currentKind h.faces) ?_
  rintro _ s' ⟨rfl, hfaces, -⟩
  generalize (wordAt rest 0).kind = kind at hrest
  have hinstance : kind ≠ .keyword .instanceof := by
    rintro rfl
    change 13 ≤ least + 1 at hrest
    omega
  rw [if_neg hinstance]
  cases hoperator : BinaryOperator.ofToken? kind with
  | none => exact .pure ⟨rfl, hfaces, h.admits⟩
  | some operator =>
    rw [TokenKind.pull_of_ofToken? hoperator] at hrest
    dsimp only
    rw [if_pos (by omega)]
    exact .pure ⟨rfl, hfaces, h.admits⟩

/-- An operator that binds tight enough is taken with its right operand. -/
theorem reaches_binaryStep_again {operand : Nat → Parser (Node .expression)} {least : Nat}
    {operator : BinaryOperator} {right : Node .expression} (start : Nat) (left : Node .expression)
    (hleast : least ≤ operator.precedence)
    (hoperand : ReadsExpressions x (·.BindsAtLeast (operator.precedence + 1))
      (operator.precedence + 2) (operand (operator.precedence + 1)))
    (hright : PlainExpression right) (hbinds : right.inner.BindsAtLeast (operator.precedence + 1))
    (hrest : (wordAt rest 0).kind.pull ≤ operator.precedence + 2)
    (h : s.cursor.Awaits x (.sign operator.token :: (right.words ++ rest))) :
    Reaches (g.binaryStep operand least start left) s fun r c => ∃ u, r = .again u ∧
      u.bare = .located (.binary left.bare operator right.bare) .nowhere "" ∧
        c.Awaits x rest := by
  unfold binaryStep
  refine .bind (reaches_currentKind h.faces) ?_
  rintro _ s' ⟨rfl, hfaces, -⟩
  have hinstance : operator.token ≠ .keyword .instanceof := by cases operator <;> exact nofun
  have hend : operator.token ≠ .endOfInput := by cases operator <;> exact nofun
  rw [wordAt_cons_zero, show (Word.sign operator.token).kind = operator.token from rfl,
    if_neg hinstance, operator.ofToken?_token]
  dsimp only
  rw [if_neg (by omega)]
  refine .bind (reaches_advance_turn ⟨hfaces, h.admits⟩ hend) ?_
  rintro token s' ⟨-, h⟩
  refine .bind (hoperand right hright hbinds rest hrest s' h) ?_
  rintro v s' ⟨hv, h⟩
  refine .bind (reaches_node _ _) ?_
  rintro u s'' ⟨hu, hcursor⟩
  refine .pure ⟨u, rfl, hu.trans ?_, hcursor ▸ h⟩
  change Tree.located (.binary left.bare operator v.bare) _ _ = _
  rw [hv]

/-- The steps of a loop get from one expression to another one over some words: what the loop
comes to from the one, it comes to from the other. -/
def Climbs (x : Tokenized)
    (step : Node .expression → Parser (Step (Node .expression) (Node .expression)))
    (first e : Node .expression) (us rest : List Word) : Prop :=
  ∀ (bound : Nat) (P : Node .expression → Cursor → Prop),
    (∀ n ≥ bound, ∀ a (s : ParserState), a.bare = e.bare → s.cursor.Awaits x rest →
      Reaches (loopFor step n a) s P) →
    ∀ n ≥ bound + us.length, ∀ a (s : ParserState), a.bare = first.bare →
      s.cursor.Awaits x (us ++ rest) → Reaches (loopFor step n a) s P

/-- An expression is its first operand and then operators with their right operands, each of
which takes one step. No operator binds tighter than the one before it, so it does not belong to
the operand between the two. -/
theorem exists_climbs {operand : Nat → Parser (Node .expression)} {least : Nat} (start : Nat)
    (hoperand : ∀ k, least < k → k ≤ 11 →
      ReadsExpressions x (·.BindsAtLeast k) (k + 1) (operand k))
    (he : PlainExpression e) (hbinds : e.inner.BindsAtLeast least) :
    ∃ first us, PlainExpression first ∧ first.inner.isOperand = true ∧ e.words = first.words ++ us ∧
      ∀ rest, (wordAt rest 0).kind.pull ≤ 12 →
        (∀ q, e.inner.precedence? = some q → (wordAt rest 0).kind.pull ≤ q + 2) →
        (wordAt (us ++ rest) 0).kind.pull ≤ 12 ∧
          Climbs x (g.binaryStep operand least start) first e us rest := by
  have hself {e : Node .expression} (he : PlainExpression e) (hinner : e.inner.isOperand = true) :
      ∃ first us, PlainExpression first ∧ first.inner.isOperand = true ∧
        e.words = first.words ++ us ∧ ∀ rest, (wordAt rest 0).kind.pull ≤ 12 →
          (∀ q, e.inner.precedence? = some q → (wordAt rest 0).kind.pull ≤ q + 2) →
          (wordAt (us ++ rest) 0).kind.pull ≤ 12 ∧
            Climbs x (g.binaryStep operand least start) first e us rest :=
    ⟨e, [], he, hinner, (List.append_nil _).symm, fun rest hrest _ =>
      ⟨hrest, fun bound P hthen => hthen⟩⟩
  induction he with
  | name hname => exact hself (.name hname) rfl
  | literal hdecimal => exact hself (.literal hdecimal) rfl
  | parenthesized hexpression => exact hself (.parenthesized hexpression) rfl
  | unary hinner hunary hplace => exact hself (.unary hinner hunary hplace) rfl
  | @binary span source left operator right hleft hright hbinds₁ hbinds₂ hcomparison ihleft
      ihright =>
    have hleast := hbinds.le_precedence _ rfl
    have hprecedence : operator.precedence ≤ 10 := by cases operator <;> decide
    obtain ⟨first, us, hfirst, hinner, hwords, hclimbs⟩ := ihleft (hbinds₁.mono hleast)
    refine ⟨first, us ++ .sign operator.token :: right.words, hfirst, hinner, ?_, ?_⟩
    · change (Tree.binary left operator right).words = _
      rw [Tree.words_binary, hwords, List.append_assoc]
    intro rest hrest htight
    have hpull := TokenKind.pull_binary operator
    obtain ⟨hfirst, hclimb⟩ := hclimbs (.sign operator.token :: (right.words ++ rest))
      (by change operator.token.pull ≤ 12; omega) fun q hq => by
        have := hbinds₁.le_precedence q hq
        change operator.token.pull ≤ q + 2
        omega
    rw [List.append_assoc]
    refine ⟨hfirst, fun bound P hthen n hn a s ha h => ?_⟩
    rw [List.length_append, List.length_cons] at hn
    rw [List.append_assoc] at h
    refine hclimb (bound + 1) P ?_ n (by omega) a s ha h
    intro m hm b s hb h
    obtain ⟨m, rfl⟩ : ∃ k, m = k + 1 := ⟨m - 1, by omega⟩
    rw [loopFor]
    refine .bind (reaches_binaryStep_again start b hleast (hoperand _ (by omega) (by omega)) hright
      hbinds₂ (htight _ rfl) h) ?_
    rintro _ s' ⟨u, rfl, hu, h⟩
    refine hthen m (by omega) u s' (hu.trans ?_) h
    rw [hb]
    rfl
  | conditional => cases hbinds.not_loose
  | assignment => cases hbinds.not_loose

/-- No operation binds tighter than a multiplication. -/
theorem precedence?_le {t : Tree .expression} {q : Nat} (h : t.precedence? = some q) : q ≤ 10 := by
  cases t <;> cases h
  · rename_i left operator right
    cases operator <;> decide
  · decide

/-- There are enough levels for the operators that bind at least as tight as demanded. -/
theorem reads_binary (hg : g.ReadsOperations x) (levels least : Nat) (hlevels : 10 < levels + least)
    (hleast : least ≤ 11) :
    ReadsExpressions x (·.BindsAtLeast least) (least + 1) (g.binary levels least) := by
  induction levels generalizing least with
  | zero =>
    intro e he hbinds rest hrest s h
    rw [Grammar.binary]
    have hoperand : e.inner.isOperand = true := by
      have hnone : e.inner.precedence? = none := by
        cases hprecedence : e.inner.precedence? with
        | none => rfl
        | some q =>
          have hle := hbinds.le_precedence q hprecedence
          have hten := precedence?_le hprecedence
          omega
      rw [Tree.isOperand, hbinds.not_loose, hnone]
      rfl
    exact reads_unaryBody hg e he hoperand rest (by omega) s h
  | succ levels ih =>
    intro e he hbinds rest hrest s h
    rw [Grammar.binary]
    refine .position ?_
    obtain ⟨first, us, hfirst, hoperand, hwords, hclimbs⟩ := exists_climbs (g := g)
      s.cursor.position (fun k hk hle => ih k (by omega) hle) he hbinds
    obtain ⟨hpull, hclimb⟩ := hclimbs rest (by omega) fun q hq => by
      have := hbinds.le_precedence q hq
      omega
    rw [hwords, List.append_assoc] at h
    refine .bind (reads_unaryBody hg first hfirst hoperand (us ++ rest) hpull s h) ?_
    rintro u s' ⟨hu, h⟩
    suffices hloop : Reaches (loopFor (g.binaryStep (g.binary levels) least s.cursor.position)
        (loopBound s') u) s' fun u c => u.bare = e.bare ∧ c.Awaits x rest from hloop
    refine hclimb 1 _ ?_ (loopBound s') ?_ u s' hu h
    · intro n hn a s'' ha h
      obtain ⟨n, rfl⟩ : ∃ k, n = k + 1 := ⟨n - 1, by omega⟩
      rw [loopFor]
      refine .bind (reaches_binaryStep_done _ a hrest hleast h) ?_
      rintro _ s'' ⟨rfl, h⟩
      exact .pure ⟨ha, h⟩
    · have hlength := h.faces.length_le
      rw [← h.faces.on.text_eq, List.length_append] at hlength
      unfold loopBound
      omega

/-! ### Conditionals and assignments -/

/-- Whatever is neither an assignment, a conditional nor a lambda may be an operand of the weakest
operator. -/
theorem bindsAtLeast_one {t : Tree .expression} (h : t.isLoose = false) : t.BindsAtLeast 1 := by
  refine ⟨h, fun q hq => ?_⟩
  cases t <;> cases hq
  · rename_i left operator right
    cases operator <;> decide
  · decide

/-- Conditionals and what binds tighter are read. -/
theorem reads_conditionalBody (hg : g.ReadsOperations x) :
    ReadsExpressions x (·.isAssignment = false) 1 g.conditionalBody := by
  intro e he hassignment rest hrest s h
  unfold conditionalBody
  have hquestion : ((wordAt rest 0).kind == .question) = false := by
    apply beq_false_of_ne
    intro hkind
    rw [hkind] at hrest
    exact absurd hrest (by decide)
  have htight (hloose : e.inner.isLoose = false) :
      Reaches (g.anyBinary >>= fun condition => eat .question >>= fun found =>
        if found = true then g.expression >>= fun thenValue => expect .colon >>= fun _ =>
          g.conditional >>= fun elseValue =>
            node s.cursor.position (.conditional condition thenValue elseValue)
        else pure condition) s fun u c => u.bare = e.bare ∧ c.Awaits x rest := by
    refine .bind (reads_binary hg 10 1 (by decide) (by decide) e he (bindsAtLeast_one hloose) rest
      (by omega) s h) ?_
    rintro u s' ⟨hu, h⟩
    refine .bind (reaches_eat_other h.faces hquestion) ?_
    rintro _ s' ⟨rfl, hfaces, -⟩
    exact .pure ⟨hu, hfaces, h.admits⟩
  refine .position ?_
  cases he with
  | name => exact htight rfl
  | literal => exact htight rfl
  | parenthesized => exact htight rfl
  | unary => exact htight rfl
  | binary => exact htight rfl
  | @conditional span source condition thenValue elseValue hcondition hthen helse hloose
      helseValue =>
    change s.cursor.Awaits x ((Tree.conditional condition thenValue elseValue).words ++ rest) at h
    rw [Tree.words_conditional, List.append_assoc, List.cons_append, List.append_assoc,
      List.cons_append] at h
    refine .bind (reads_binary hg 10 1 (by decide) (by decide) condition hcondition
      (bindsAtLeast_one hloose) (.sign .question :: _) (Nat.le_refl 2) s h) ?_
    rintro a s' ⟨ha, h⟩
    refine .bind (reaches_eat h.faces rfl nofun) ?_
    rintro _ s' ⟨rfl, hfaces⟩
    refine .bind (hg.expression thenValue hthen trivial (.sign .colon :: _) (Nat.le_refl 0) s'
      (awaits_tail h hfaces)) ?_
    rintro b s' ⟨hb, h⟩
    refine .bind (reaches_expect h.faces rfl nofun) ?_
    rintro token s' ⟨-, hfaces⟩
    refine .bind (hg.conditional elseValue helse helseValue rest hrest s' (awaits_tail h hfaces)) ?_
    rintro c s' ⟨hc, h⟩
    refine (reaches_node _ _).mono ?_
    rintro u c' ⟨hu, rfl⟩
    refine ⟨hu.trans ?_, h⟩
    change Tree.located (.conditional a.bare b.bare c.bare) _ _ = _
    rw [ha, hb, hc]
    rfl
  | assignment => cases hassignment

/-- Assignments are read to the right. -/
theorem reads_expressionBody (hg : g.ReadsOperations x) :
    ReadsExpressions x (fun _ => True) 0 g.expressionBody := by
  intro e he _ rest hrest s h
  unfold expressionBody
  refine .position ?_
  by_cases hassignment : e.inner.isAssignment = true
  · cases he with
    | @assignment span source target operator value htarget hvalue hinner =>
      change s.cursor.Awaits x ((Tree.assignment target operator value).words ++ rest) at h
      rw [Tree.words_assignment, List.append_assoc, List.cons_append] at h
      have hpull := TokenKind.pull_assignment operator
      have hend : operator.token ≠ .endOfInput := by cases operator <;> exact nofun
      refine .bind (reads_conditionalBody hg target htarget hinner (.sign operator.token :: _)
        (Nat.le_of_eq hpull) s h) ?_
      rintro a s' ⟨ha, h⟩
      refine .bind (reaches_currentKind h.faces) ?_
      rintro _ s' ⟨rfl, hfaces, -⟩
      rw [wordAt_cons_zero, show (Word.sign operator.token).kind = operator.token from rfl,
        operator.ofToken?_token]
      refine .bind (reaches_advance_turn ⟨hfaces, h.admits⟩ hend) ?_
      rintro token s' ⟨-, h⟩
      refine .bind (hg.expression value hvalue trivial rest hrest s' h) ?_
      rintro b s' ⟨hb, h⟩
      refine (reaches_node _ _).mono ?_
      rintro u c ⟨hu, rfl⟩
      refine ⟨hu.trans ?_, h⟩
      change Tree.located (.assignment a.bare operator b.bare) _ _ = _
      rw [ha, hb]
      rfl
    | name => cases hassignment
    | literal => cases hassignment
    | parenthesized => cases hassignment
    | unary => cases hassignment
    | binary => cases hassignment
    | conditional => cases hassignment
  · refine .bind (reads_conditionalBody hg e he (eq_false_of_ne_true hassignment) rest
      (Nat.le_succ_of_le hrest) s h) ?_
    rintro u s' ⟨hu, h⟩
    refine .bind (reaches_currentKind h.faces) ?_
    rintro _ s' ⟨rfl, hfaces, -⟩
    rw [TokenKind.ofToken?_of_pull_eq_zero (Nat.le_zero.mp hrest)]
    exact .pure ⟨hu, hfaces, h.admits⟩

/-! ### All levels -/

/-- Counting the depth changes nothing about what is read, unless it is nested too deep. -/
theorem readsExpressions_guarded {allowed : Tree .expression → Prop} {limit : Nat}
    {p : Parser (Node .expression)} (h : ReadsExpressions x allowed limit p) :
    ReadsExpressions x allowed limit (guarded "expression" p) := by
  intro e he hallowed rest hrest s hs
  exact reaches_guarded "expression" hs.faces fun s hfaces =>
    h e he hallowed rest hrest s ⟨hfaces, hs.admits⟩

/-- The grammar reads expressions of operators, however deep they are nested. -/
theorem readsOperations_levels (n : Nat) : (levels n).ReadsOperations x := by
  induction n with
  | zero =>
    exact ⟨fun e _ _ rest _ s h => reaches_refuseDepth h.faces,
      fun e _ _ rest _ s h => reaches_refuseDepth h.faces,
      fun e _ _ rest _ s h => reaches_refuseDepth h.faces⟩
  | succ n ih =>
    exact ⟨readsExpressions_guarded (reads_expressionBody ih),
      readsExpressions_guarded (reads_conditionalBody ih),
      readsExpressions_guarded (reads_unaryBody ih)⟩

end PlainExpression

end JavaSyntax
