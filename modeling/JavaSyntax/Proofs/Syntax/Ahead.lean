import JavaSyntax.Proofs.Syntax.Runs

/-!
# Productions cannot see how much was read

Two states of a parse that differ only in how far their cursors have read ahead, and in
their notes, are the same to every production: it comes to the same tree or the same
error, and leaves two states that again differ in nothing else.
-/

namespace JavaSyntax

open Work

/-- A state that differs from another one at most in that its cursor has read ahead, and in
its notes. -/
structure ParserState.Ahead (s t : ParserState) : Prop extends SameFrame s t where
  cursor : s.cursor.Ahead t.cursor
  history_eq : s.history = t.history

/-- A state is ahead if its cursor is and everything else is the same. -/
theorem ParserState.ahead_of {s t : ParserState} (hcursor : s.cursor.Ahead t.cursor)
    (hcontexts : s.contexts = t.contexts) (hdepth : s.depth = t.depth)
    (hlambdas : s.lambdas = t.lambdas) (hpreferences : s.preferences = t.preferences)
    (hhistory : s.history = t.history) : s.Ahead t :=
  ⟨⟨hcursor.text_eq.symm, hcontexts, hdepth, hlambdas, hpreferences⟩, hcursor, hhistory⟩

namespace ParserState.Ahead

variable {s t : ParserState}

/-- Reading ahead does not move a cursor. -/
theorem position_eq (h : s.Ahead t) : t.cursor.position = s.cursor.position := by
  obtain ⟨ts, hts⟩ := h.cursor
  exact hts.position_eq

/-- The cursors may move on as long as one stays ahead of the other. -/
theorem withCursor {c d : Cursor} (h : s.Ahead t) (hcursor : c.Ahead d) :
    ({ s with cursor := c } : ParserState).Ahead { t with cursor := d } :=
  ahead_of hcursor h.contexts_eq h.depth_eq h.lambdas_eq h.preferences_eq h.history_eq

/-- Notes are no difference. -/
theorem note (h : s.Ahead t) (e f : LogEvent) : (s.note e).Ahead (t.note f) :=
  h.withCursor (h.cursor.note e f)

/-- A name that is put on the stack is put on both. -/
theorem pushContext (h : s.Ahead t) (context : String) :
    (s.pushContext context).Ahead (t.pushContext context) := by
  have hcontexts : (context :: s.contexts).take Limits.maxContextStackDepth =
      (context :: t.contexts).take Limits.maxContextStackDepth := by rw [h.contexts_eq]
  unfold ParserState.pushContext
  rw [← h.contexts_eq]
  dsimp only
  split
  · exact ahead_of (h.cursor.note _ _) hcontexts h.depth_eq h.lambdas_eq h.preferences_eq
      h.history_eq
  · exact ahead_of h.cursor hcontexts h.depth_eq h.lambdas_eq h.preferences_eq h.history_eq

/-- A production is opened on both sides. -/
theorem entered (h : s.Ahead t) (context : String) :
    (Parser.entered context s).Ahead (Parser.entered context t) := by
  have hdepth : s.depth + 1 = t.depth + 1 := by rw [h.depth_eq]
  apply pushContext
  exact ahead_of h.cursor h.contexts_eq hdepth h.lambdas_eq h.preferences_eq h.history_eq

/-- A production is closed on both sides. -/
theorem leave (h : s.Ahead t) : s.leave.Ahead t.leave := by
  have hcontexts : s.contexts.tail = t.contexts.tail := by rw [h.contexts_eq]
  have hdepth : s.depth - 1 = t.depth - 1 := by rw [h.depth_eq]
  exact ahead_of h.cursor hcontexts hdepth h.lambdas_eq h.preferences_eq h.history_eq

/-- Both sides may go back. -/
theorem restorePosition (h : s.Ahead t) (hs : s.cursor.WellFormed) (n : Nat) :
    (s.restorePosition n).Ahead (t.restorePosition n) :=
  h.withCursor (h.cursor.restore hs n)

/-- The rule for arrows is set on both sides. -/
theorem setLambdas (h : s.Ahead t) {a b : Bool} (hab : a = b) :
    ({ s with lambdas := a } : ParserState).Ahead { t with lambdas := b } :=
  ahead_of h.cursor h.contexts_eq h.depth_eq hab h.preferences_eq h.history_eq

end ParserState.Ahead

namespace Parser

variable {α β : Type} {s t : ParserState}

/-- Two runs come to the same, and leave states of which the second has read ahead. -/
def Agree (x y : Except SyntaxError α × ParserState) : Prop := x.1 = y.1 ∧ x.2.Ahead y.2

/-- Runs that agree step by step agree. -/
theorem Agree.bind {p : Parser α} {f : α → Parser β} (hp : Agree (p s) (p t))
    (hf : ∀ a s' t', p s = (.ok a, s') → s'.Ahead t' → Agree (f a s') (f a t')) :
    Agree ((p >>= f) s) ((p >>= f) t) := by
  obtain ⟨hresult, hahead⟩ := hp
  rw [bind_apply, bind_apply]
  generalize p s = first at hresult hahead hf
  generalize p t = second at hresult hahead
  obtain ⟨result, s'⟩ := first
  obtain ⟨_, t'⟩ := second
  cases hresult
  cases result with
  | error e => exact ⟨rfl, hahead⟩
  | ok a => exact hf a s' t' rfl hahead

/-- What work on the cursor agrees on, the parser does. -/
theorem Agree.read {x : Reading α} (hst : s.Ahead t)
    (h : Cursor.Agree (x s.cursor) (x t.cursor)) : Agree (read x s) (read x t) := by
  obtain ⟨hresult, hahead⟩ := h
  rw [read_apply, read_apply]
  exact ⟨congrArg (Except.mapError SyntaxError.lexical) hresult, hst.withCursor hahead⟩

/-- Whether productions are nested too deep is the same for both, and so is what comes next. -/
theorem agree_guarded {p : Parser α} (context : String) (hst : s.Ahead t)
    (h : Agree (p (entered context s)) (p (entered context t))) :
    Agree (guarded context p s) (guarded context p t) := by
  rw [guarded_apply, guarded_apply, ← hst.depth_eq]
  split
  · obtain ⟨hresult, hahead⟩ := Agree.read hst (hst.cursor.peekAhead 0)
    change (peek 0 s).1 = (peek 0 t).1 at hresult
    change (peek 0 s).2.Ahead (peek 0 t).2 at hahead
    generalize peek 0 s = first at hresult hahead
    generalize peek 0 t = second at hresult hahead
    obtain ⟨result, s'⟩ := first
    obtain ⟨_, t'⟩ := second
    cases hresult
    cases result with
    | error e => exact ⟨rfl, hahead⟩
    | ok token => exact ⟨rfl, hahead.note _ _⟩
  · exact ⟨h.1, h.2.leave⟩

end Parser

/-- No production can tell how far a cursor has read ahead. -/
theorem Production.agree {α : Type} {m : Footing} {p : Parser α} (h : Production m p)
    {s t : ParserState} (hs : s.cursor.Settled) (hm : m.Holds s.cursor) (hst : s.Ahead t) :
    Parser.Agree (p s) (p t) := by
  induction h generalizing s t with
  | relax h hcovers ih => exact ih hs (hcovers.holds hm).1 hst
  | pure a => exact ⟨rfl, hst⟩
  | throw he => exact ⟨rfl, hst⟩
  | bind hne hp hf ihp ihf =>
    have hrun := hp.runs hs hm
    refine (ihp hs hm hst).bind ?_
    intro a s' t' hok hahead
    rw [hok] at hrun
    exact ihf a hrun.course.settled (hm.course hrun.course) hahead
  | look hp hf ihp ihf =>
    have hrun := hp.runs hs hm
    refine (ihp hs hm hst).bind ?_
    intro a s' t' hok hahead
    rw [hok] at hrun
    exact ihf a hrun.course.settled trivial hahead
  | @observe _ _ m g f hg hf ih =>
    change Parser.Agree (f (g s) s) (f (g t) t)
    rw [← hg s t hst.toSameFrame]
    exact ih (g s) hs hm hst
  | peek n => exact .read hst (hst.cursor.peekAhead n)
  | advance => exact .read hst hst.cursor.advance
  | closing? =>
    rw [Parser.closing?_eq]
    exact .read hst (hst.cursor.closing? hs)
  | note event => exact ⟨rfl, hst.note event event⟩
  | guarded context h ih =>
    obtain ⟨hsettled, hholds⟩ :=
      Parser.settled_pushContext (s := { s with depth := s.depth + 1 }) context hs hm
    exact Parser.agree_guarded context hst (ih hsettled hholds (hst.entered context))
  | withLambdas allowed h ih =>
    rw [Parser.withLambdas_apply, Parser.withLambdas_apply]
    have hagree := ih (s := { s with lambdas := allowed }) (t := { t with lambdas := allowed })
      hs hm (hst.setLambdas rfl)
    exact ⟨hagree.1, hagree.2.setLambdas hst.lambdas_eq⟩
  | @start _ _ m p f hp hf ihp ihf =>
    rw [Parser.position_bind_apply, Parser.position_bind_apply, hst.position_eq]
    have hrun := hp.runs hs trivial
    refine (ihp hs trivial hst).bind ?_
    intro a s' t' hok hahead
    have hlooked := hrun.looked rfl a (by rw [hok])
    rw [hok] at hrun hlooked
    exact ihf _ a hm.atMost hrun.course.settled ⟨hrun.course.le_position, hlooked⟩ hahead
  | mark hne hf ih =>
    rw [Parser.position_bind_apply, Parser.position_bind_apply, hst.position_eq]
    exact ih _ hm.atMost hs (Nat.le_refl _) hst
  | restore n => exact ⟨rfl, hst.restorePosition hs.toWellFormed n⟩
  | @goBack _ n p h ih =>
    have hsettled := (h.runs hs hm).course.settled
    have hagree := ih hs hm hst
    exact ⟨hagree.1, hagree.2.restorePosition hsettled.toWellFormed n⟩
  | node tree h =>
    have hspan := hst.cursor.spanFrom_eq hs (Nat.lt_of_le_of_lt h hm.2)
    rw [Parser.node_apply, Parser.node_apply, hspan, Cursor.sourceText, Cursor.sourceText,
      hst.text_eq]
    exact ⟨rfl, hst⟩

end JavaSyntax
