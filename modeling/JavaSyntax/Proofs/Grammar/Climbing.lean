import JavaSyntax.Proofs.Grammar.ExpressionNodes

/-!
# Climbing by precedence

Operands and the operators between them are read by climbing: the right operand of an
operator ends where an operator comes that does not bind tighter. So the operator that comes
after an operation binds at most as tight as the operation, and the operation can be its left
operand. A test with `instanceof` is the exception, since it ends with a type: whatever
operator comes after the type takes the test as its left operand.
-/

namespace JavaSyntax

open Work JavaSyntax.Parser

variable {x : Tokenized}

/-! ### Where an operand ends -/

/-- The binding power of the operator that a token between operands writes. -/
def TokenKind.bindingPower? (kind : TokenKind) : Option Nat :=
  if kind = .keyword .instanceof then some instanceOfPrecedence
  else (BinaryOperator.ofToken? kind).map (·.precedence)

/-- No operator binds tighter than a multiplication. -/
theorem TokenKind.bindingPower?_le {kind : TokenKind} {q : Nat} (h : kind.bindingPower? = some q) :
    q ≤ 10 := by
  unfold bindingPower? at h
  split at h
  · cases h
    decide
  · obtain ⟨operator, -, rfl⟩ := Option.map_eq_some_iff.mp h
    cases operator <;> decide

/-- No operator comes next that binds at least as tight as demanded. -/
def Cursor.Ends (least : Nat) (c : Cursor) : Prop :=
  ∀ {t c'}, Cursor.peekAhead 0 c = (.ok t, c') → ∀ q, t.kind.bindingPower? = some q → q < least

/-- Nothing can bind tighter than the tightest operators do. -/
theorem Cursor.ends_of_lt {least : Nat} (h : 10 < least) (c : Cursor) : c.Ends least := by
  intro t c' _ q hq
  have := TokenKind.bindingPower?_le hq
  omega

/-- What was seen is seen again. -/
theorem Cursor.ends_of_peekAhead {least : Nat} {c c' : Cursor} {t : Token} (hc : c.On x)
    (hpeek : Cursor.peekAhead 0 c = (.ok t, c'))
    (h : ∀ q, t.kind.bindingPower? = some q → q < least) : c'.Ends least := by
  intro u c'' hagain
  rw [Cursor.peekAhead_zero (hc.settled.getElem?_current hpeek)] at hagain
  cases hagain
  exact h

/-- A production reads operands that bind at least as tight as demanded, as far as possible. -/
def ReadsOperand (x : Tokenized) (least : Nat) (p : Parser (Node .expression)) : Prop :=
  ∀ {s s' : ParserState} {a : Node .expression}, s.cursor.On x → p s = (.ok a, s') →
    (∃ ts, Stretch x s.cursor ts a.parts (.covering a) s'.cursor) ∧
      a.inner.BindsAtLeast least ∧ s'.cursor.Ends least

/-- Operands and operators have been read that bind at least as tight as demanded. If the
result is an operation, the next operator does not bind tighter than it. -/
structure Climbed (x : Tokenized) (c : Cursor) (least : Nat) (a : Node .expression)
    (c' : Cursor) : Prop where
  stretch : ∃ ts, Stretch x c ts a.parts (.covering a) c'
  bindsAtLeast : a.inner.BindsAtLeast least
  ends : ∀ q, a.inner.precedence? = some q → a.inner.isInstanceOf = true ∨ c'.Ends (q + 1)

namespace Grammar

variable {g : Grammar} [hg : g.Yielding x]

instance : Yields x g.instanceOfTarget (fun _ => .taken) := by
  unfold instanceOfTarget
  exact .free fun _ => .ask (.seq fun _ => .pure) (.seq fun _ => .pure)

/-! ### One more operator -/

section Step

variable {operand : Nat → Parser (Node .expression)} {least : Nat} {c : Cursor}
  {left : Node .expression} {s s' : ParserState} {ts : List Token}
  {outcome : Step (Node .expression) (Node .expression)}

/-- A test with `instanceof`, after the operand that it tests. -/
theorem climbed_instanceOf (hc : c.On x)
    (hstretch : Stretch x c ts left.parts (.covering left) s.cursor)
    (hleft : left.inner.BindsAtLeast instanceOfPrecedence) (hleast : least ≤ instanceOfPrecedence)
    (hrun : (Parser.advance >>= fun _ => g.instanceOfTarget >>= fun target =>
      node c.position (.instanceOf left target) >>= fun a => pure (.again a)) s =
        (.ok outcome, s')) :
    ∃ a, outcome = .again a ∧ Climbed x c least a s'.cursor := by
  obtain ⟨t, s₁, hadvance, hrun⟩ := bind_eq_ok hrun
  obtain ⟨target, s₂, htarget, hrun⟩ := bind_eq_ok hrun
  cases hrun
  obtain ⟨us, hus⟩ := Yields.extend inferInstance hc (G := [left.parts]) hstretch hadvance
  obtain ⟨vs, hvs⟩ := Yields.extend inferInstance hc hus htarget
  have hparts : Stretch x c vs (Tree.instanceOf left target).parts .taken s'.cursor := hvs
  refine ⟨_, rfl, ⟨vs, ?_⟩, ⟨rfl, ?_⟩, ?_⟩
  · rw [Tree.parts_node]
    exact hparts.node hc hleft trivial rfl (Part.ruled_of_ne (by decide))
  · rintro q ⟨⟩
    exact hleast
  · intro q _
    exact .inl rfl

/-- An operator and its right operand, after its left one. -/
theorem climbed_binary {operator : BinaryOperator} (hc : c.On x)
    (hoperand : ReadsOperand x (operator.precedence + 1) (operand (operator.precedence + 1)))
    (hstretch : Stretch x c ts left.parts (.covering left) s.cursor)
    (hloose : left.inner.isLoose = false)
    (hleft : ∀ q, left.inner.precedence? = some q →
      operator.precedence ≤ q ∨ left.inner.isInstanceOf = true)
    (hleast : least ≤ operator.precedence)
    (hrun : (Parser.advance >>= fun _ => operand (operator.precedence + 1) >>= fun right =>
      node c.position (.binary left operator right) >>= fun a => pure (.again a)) s =
        (.ok outcome, s')) :
    ∃ a, outcome = .again a ∧ Climbed x c least a s'.cursor := by
  obtain ⟨t, s₁, hadvance, hrun⟩ := bind_eq_ok hrun
  obtain ⟨right, s₂, hright, hrun⟩ := bind_eq_ok hrun
  cases hrun
  obtain ⟨us, hus⟩ := Yields.extend inferInstance hc (G := [left.parts]) hstretch hadvance
  obtain ⟨⟨vs, hvs⟩, hbinds, hends⟩ := hoperand (hus.on hc) hright
  have hparts : Stretch x c (us ++ vs) (Tree.binary left operator right).parts .taken s'.cursor :=
    hus.trans hc hvs
  refine ⟨_, rfl, ⟨us ++ vs, ?_⟩, ⟨rfl, ?_⟩, ?_⟩
  · rw [Tree.parts_node]
    exact hparts.node hc ⟨hloose, hleft, hbinds⟩ trivial rfl (Part.ruled_of_ne (by decide))
  · rintro q ⟨⟩
    exact hleast
  · rintro q ⟨⟩
    exact .inr hends

/-- What the steps of a climb keep, and what the last one comes to. -/
theorem climbed_step (hoperand : ∀ k, least < k → ReadsOperand x k (operand k)) (hc : c.On x)
    (h : Climbed x c least left s.cursor)
    (hrun : g.binaryStep operand least c.position left s = (.ok outcome, s')) :
    (∃ a, outcome = .again a ∧ Climbed x c least a s'.cursor) ∨
      ∃ a, outcome = .done a ∧ (∃ ts, Stretch x c ts a.parts (.covering a) s'.cursor) ∧
        a.inner.BindsAtLeast least ∧ s'.cursor.Ends least := by
  unfold binaryStep at hrun
  obtain ⟨kind, s₁, hkind, hrun⟩ := bind_eq_ok hrun
  obtain ⟨t, s₂, ht, hpure⟩ := bind_eq_ok hkind
  cases hpure
  have hpeek := peek_eq_ok ht
  obtain ⟨ts, hstretch⟩ := h.stretch
  have hs := hstretch.on hc
  have hlook : Stretch x c ts left.parts (.covering left) s₁.cursor := by
    have hstay := hstretch.trans hc (Stretch.peekAhead hs hpeek)
    simpa using hstay
  -- An operation on the left binds at least as tight as the operator that comes next.
  have hnext (p q : Nat) (hp : left.inner.precedence? = some p)
      (hq : t.kind.bindingPower? = some q) : q ≤ p ∨ left.inner.isInstanceOf = true := by
    rcases h.ends p hp with hinstance | hends
    · exact .inr hinstance
    · exact .inl (Nat.lt_succ_iff.mp (hends hpeek q hq))
  have hdone (hq : ∀ q, t.kind.bindingPower? = some q → q < least) :
      (∃ ts, Stretch x c ts left.parts (.covering left) s₁.cursor) ∧
        left.inner.BindsAtLeast least ∧ s₁.cursor.Ends least :=
    ⟨⟨ts, hlook⟩, h.bindsAtLeast, Cursor.ends_of_peekAhead hs hpeek hq⟩
  by_cases hinstance : t.kind = .keyword .instanceof
  · rw [if_pos hinstance] at hrun
    split at hrun
    · rename_i hlt
      cases hrun
      refine .inr ⟨_, rfl, hdone ?_⟩
      rw [hinstance]
      rintro q ⟨⟩
      exact hlt
    · rename_i hle
      refine .inl (climbed_instanceOf hc hlook ⟨h.bindsAtLeast.not_loose, ?_⟩ (by omega) hrun)
      intro p hp
      rcases hnext p _ hp (by rw [hinstance]; rfl) with hle | htest
      · exact hle
      · rw [Tree.precedence?_of_isInstanceOf htest] at hp
        cases hp
        exact Nat.le_refl _
  · rw [if_neg hinstance] at hrun
    have hpower : t.kind.bindingPower? = (BinaryOperator.ofToken? t.kind).map (·.precedence) :=
      if_neg hinstance
    cases hoperator : BinaryOperator.ofToken? t.kind with
    | none =>
      rw [hoperator] at hrun hpower
      cases hrun
      refine .inr ⟨_, rfl, hdone ?_⟩
      rw [hpower]
      exact nofun
    | some operator =>
      rw [hoperator] at hrun hpower
      dsimp only at hrun
      split at hrun
      · rename_i hlt
        cases hrun
        refine .inr ⟨_, rfl, hdone ?_⟩
        rw [hpower]
        rintro q ⟨⟩
        exact hlt
      · rename_i hle
        exact .inl (climbed_binary hc (hoperand _ (by omega)) hlook h.bindsAtLeast.not_loose
          (fun p hp => hnext p _ hp hpower) (by omega) hrun)

end Step

/-! ### All operators -/

/-- A unary expression is an operand, and covers what was read for it. -/
theorem unaryBody_run {s s' : ParserState} {a : Node .expression} (hs : s.cursor.On x)
    (hrun : g.unaryBody s = (.ok a, s')) : a.inner.isOperand = true ∧
      ∃ ts, Stretch x s.cursor ts a.parts (.covering a) s'.cursor := by
  obtain ⟨ts, hstretch⟩ := Yields.run hs hrun
  by_cases ha : a.inner.isOperand = true
  · rw [Effect.operand, if_pos ha] at hstretch
    exact ⟨ha, ts, hstretch⟩
  · rw [Effect.operand, if_neg ha] at hstretch
    exact hstretch.holds.elim

/-- There are enough levels for the operators that bind at least as tight as demanded, since
each level demands more than the one before. -/
theorem readsOperand_binary (levels least : Nat) (hlevels : 10 < levels + least) :
    ReadsOperand x least (g.binary levels least) := by
  induction levels generalizing least with
  | zero =>
    intro s s' a hs hrun
    rw [binary] at hrun
    obtain ⟨ha, hstretch⟩ := unaryBody_run hs hrun
    exact ⟨hstretch, Tree.bindsAtLeast_of_isOperand ha least, Cursor.ends_of_lt (by omega) _⟩
  | succ levels ih =>
    intro s s' a hs hrun
    rw [binary] at hrun
    obtain ⟨start, s₀, hstart, hrun⟩ := bind_eq_ok hrun
    cases hstart
    obtain ⟨first, s₁, hfirst, hrun⟩ := bind_eq_ok hrun
    obtain ⟨hoperand, hstretch⟩ := unaryBody_run hs hfirst
    have hclimbed : Climbed x s.cursor least first s₁.cursor := by
      refine ⟨hstretch, Tree.bindsAtLeast_of_isOperand hoperand least, ?_⟩
      intro q hq
      rw [Tree.precedence?_of_isOperand hoperand] at hq
      cases hq
    have hright (k : Nat) (hk : least < k) : ReadsOperand x k (g.binary levels k) :=
      ih k (by omega)
    clear hfirst hoperand hstretch
    change loopFor (g.binaryStep (g.binary levels) least s.cursor.position) (loopBound s₁) first s₁ =
      (.ok a, s') at hrun
    generalize loopBound s₁ = bound at hrun
    induction bound generalizing first s₁ with
    | zero => exact absurd (congrArg Prod.fst hrun) (unexpected_ne_ok _ _ _)
    | succ bound ihbound =>
      obtain ⟨outcome, s₂, hok, hrest⟩ := bind_eq_ok hrun
      rcases climbed_step hright hs hclimbed hok with ⟨b, rfl, hb⟩ | ⟨b, rfl, hb⟩
      · exact ihbound b s₂ hb hrest
      · cases hrest
        exact hb

/-! ### Conditionals and assignments -/

instance : Yields x g.anyBinary Effect.covering where
  run hs hrun := (readsOperand_binary 10 1 (by decide) hs hrun).1

instance : Yields x g.conditionalBody Effect.covering := by
  unfold conditionalBody
  refine .start fun _ => .seq fun condition => .ask ?_ (.pure (.refl _) ?_)
  · exact .seq fun _ => .seq fun _ => .seq fun _ => .node
  · rfl

instance : Yields x g.expressionBody Effect.covering := by
  unfold expressionBody
  refine .start fun _ => .seq fun _ => .look fun kind => ?_
  split
  · exact .pure (.refl _) rfl
  · exact .seq fun _ => .seq fun _ => .node

end Grammar

end JavaSyntax
