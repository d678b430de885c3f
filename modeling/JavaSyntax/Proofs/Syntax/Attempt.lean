import JavaSyntax.Proofs.Grammar.Statements
import JavaSyntax.Proofs.Syntax.Ahead
import JavaSyntax.Syntax.Session

/-!
# Attempts that fail

A session uses a parser from outside: it runs productions one after the other, tries some of
them, and goes on after errors. Two states are indistinguishable if every session comes to
the same in both. A failed attempt leaves the parse in a state that is
indistinguishable from the one before it, with one exception: when the lexer has refused a
whole lexeme during the attempt, it has passed that lexeme, and the parse goes on after it as
if it were not there.
-/

namespace JavaSyntax

open Work

/-! ### Sessions -/

/-- Runs a parser and hands over what it came to, also if it failed. -/
def Parser.outcome {α : Type} (p : Parser α) : Parser (Except SyntaxError α) :=
  fun s => (.ok (p s).1, (p s).2)

/-- Runs a production and demands that it takes the whole text. -/
def Parser.wholly {α : Type} (p : Parser α) : Parser α := do
  let a ← p
  expectEnd
  return a

/-- What can be done with a parser from outside. Each step may depend on what the steps
before it came to. -/
inductive Session : {α : Type} → Parser α → Prop
  | production {α : Type} {p : Parser α} (h : Production .free p) : Session p
  | outcome {α : Type} {p : Parser α} (h : Session p) : Session p.outcome
  | attempt {α : Type} {p : Parser α} (h : Session p) : Session (Parser.attempt p)
  | entry {α : Type} {p : Parser α} (name : String) (h : Session p) :
      Session (Parser.entry name p)
  | history : Session (do return (← get).history)
  | bind {α β : Type} {p : Parser α} {f : α → Parser β} (hp : Session p)
      (hf : ∀ a, Session (f a)) : Session (p >>= f)

/-- No session comes to something else in the one state than in the other. -/
def ParserState.Indistinguishable (s t : ParserState) : Prop :=
  ∀ (α : Type) (q : Parser α), Session q → (q s).1 = (q t).1

/-- The states in which a parse can be between two steps of a session. -/
inductive ParserState.Reachable : ParserState → Prop
  | start (text : String) (lexical : LexicalPreferences) (preferences : SyntaxPreferences) :
      Reachable (ofText text lexical preferences)
  | session {s : ParserState} {α : Type} {q : Parser α} (h : Reachable s) (hq : Session q) :
      Reachable (q s).2
  /-- The parse goes back to a checkpoint that is not ahead of it. -/
  | rollback {s : ParserState} (checkpoint : Checkpoint) (h : Reachable s)
      (hle : checkpoint.position ≤ s.cursor.position) : Reachable (s.rollback checkpoint)

/-! ### Equations -/

namespace Parser

variable {α : Type}

/-- An attempt hands over a result, or notes its failure down and goes back. -/
theorem attempt_apply (p : Parser α) (s : ParserState) :
    attempt p s = match p s with
      | (.ok a, s') => (.ok (some a), s')
      | (.error e, s') => (.ok none, (s'.note (trialEvent e)).rollback s.checkpoint) := rfl

/-- A call runs its production to the end of the text, and notes down what it came to. -/
theorem entry_apply (name : String) (p : Parser α) (s : ParserState) :
    entry name p s = ((p.wholly (s.pushContext name)).1,
      ((p.wholly (s.pushContext name)).2.conclude name
        (p.wholly (s.pushContext name)).1).settle) := rfl

end Parser

/-! ### Sessions cannot see how much was read -/

namespace ParserState

variable {α : Type} {s t : ParserState}

/-- Concluding a production does not move the cursor. -/
theorem cursor_conclude (name : String) (r : Except SyntaxError α) (s : ParserState) :
    (s.conclude name r).cursor =
      { s.cursor with journal := (s.conclude name r).cursor.journal } := by
  unfold conclude record
  cases r with
  | ok a =>
    dsimp only
    split <;> rfl
  | error e =>
    dsimp only
    split <;> rfl

/-- To go back keeps a cursor settled. -/
theorem settled_rollback {checkpoint : Checkpoint} (hs : s.cursor.Settled)
    (hle : checkpoint.position ≤ s.cursor.position) : (s.rollback checkpoint).cursor.Settled := by
  have hnote := hs.withJournal (s.note checkpoint.event).cursor.journal
  exact Cursor.Settled.restore hnote hle

/-- A checkpoint says nothing about how much was read. -/
theorem Ahead.checkpoint_eq (h : s.Ahead t) : s.checkpoint = t.checkpoint := by
  unfold checkpoint
  rw [h.position_eq, h.contexts_eq, h.depth_eq, h.lambdas_eq]

/-- Both sides may go back to a checkpoint. -/
theorem Ahead.rollback (h : s.Ahead t) (hs : s.cursor.Settled) (checkpoint : Checkpoint) :
    (s.rollback checkpoint).Ahead (t.rollback checkpoint) := by
  have hnote := hs.withJournal (s.note checkpoint.event).cursor.journal
  have hcursor := (h.note checkpoint.event checkpoint.event).cursor
  exact ahead_of (hcursor.restore hnote.toWellFormed checkpoint.position) rfl rfl rfl
    h.preferences_eq h.history_eq

/-- An error is recorded on both sides. -/
theorem Ahead.record (h : s.Ahead t) (e : SyntaxError) : (s.record e).Ahead (t.record e) := by
  unfold ParserState.record
  rw [← h.preferences_eq, ← h.history_eq]
  split
  · exact ahead_of h.cursor h.contexts_eq h.depth_eq h.lambdas_eq rfl rfl
  · exact h

/-- A call is concluded on both sides. -/
theorem Ahead.conclude (h : s.Ahead t) (name : String) (r : Except SyntaxError α) :
    (s.conclude name r).Ahead (t.conclude name r) := by
  unfold ParserState.conclude
  cases r with
  | ok a =>
    dsimp only
    rw [← h.preferences_eq]
    split
    · exact h.note _ _
    · exact h
  | error e => exact (h.record e).note _ _

end ParserState

/-- A parser that keeps the cursor settled, goes back no further than where it starts, and
cannot see how much was read. -/
structure Parser.Oblivious {α : Type} (p : Parser α) : Prop where
  settled : ∀ {s : ParserState}, s.cursor.Settled →
    (p s).2.cursor.Settled ∧ s.cursor.position ≤ (p s).2.cursor.position
  agree : ∀ {s t : ParserState}, s.cursor.Settled → s.Ahead t → Agree (p s) (p t)

/-- A production cannot see how much was read. -/
theorem Production.oblivious {α : Type} {p : Parser α} (h : Production .free p) : p.Oblivious where
  settled hs := by
    have hcourse := (h.runs hs trivial).course
    exact ⟨hcourse.settled, hcourse.le_position⟩
  agree hs hst := h.agree hs trivial hst

namespace Parser.Oblivious

variable {α β : Type} {p : Parser α} {f : α → Parser β}

/-- Parsers that cannot see how much was read cannot do so one after the other. -/
theorem bind (hp : p.Oblivious) (hf : ∀ a, (f a).Oblivious) : (p >>= f).Oblivious where
  settled {s} hs := by
    obtain ⟨hsettled, hle⟩ := hp.settled hs
    rw [bind_apply]
    generalize p s = outcome at hsettled hle
    obtain ⟨e | a, s'⟩ := outcome
    · exact ⟨hsettled, hle⟩
    · obtain ⟨hsettled', hle'⟩ := (hf a).settled hsettled
      exact ⟨hsettled', Nat.le_trans hle hle'⟩
  agree {s t} hs hst := by
    refine (hp.agree hs hst).bind ?_
    intro a s' t' hok hahead
    have hsettled := (hp.settled hs).1
    rw [hok] at hsettled
    exact (hf a).agree hsettled hahead

/-- Handing over what a parser came to says nothing about how much was read. -/
theorem outcome (h : p.Oblivious) : p.outcome.Oblivious where
  settled hs := h.settled hs
  agree hs hst := by
    obtain ⟨hresult, hahead⟩ := h.agree hs hst
    exact ⟨congrArg Except.ok hresult, hahead⟩

/-- An attempt cannot see how much was read. -/
theorem attempt (h : p.Oblivious) : (attempt p).Oblivious where
  settled {s} hs := by
    obtain ⟨hsettled, hle⟩ := h.settled hs
    rw [attempt_apply]
    generalize p s = outcome at hsettled hle
    obtain ⟨e | a, s'⟩ := outcome
    · exact ⟨ParserState.settled_rollback (hsettled.withJournal _) hle, Nat.le_refl _⟩
    · exact ⟨hsettled, hle⟩
  agree {s t} hs hst := by
    obtain ⟨hsettled, -⟩ := h.settled hs
    obtain ⟨hresult, hahead⟩ := h.agree hs hst
    rw [attempt_apply, attempt_apply, ← hst.checkpoint_eq]
    generalize p s = first at hresult hahead hsettled
    generalize p t = second at hresult hahead
    obtain ⟨result, s'⟩ := first
    obtain ⟨_, t'⟩ := second
    cases hresult
    cases result with
    | error e => exact ⟨rfl, (hahead.note _ _).rollback (hsettled.withJournal _) _⟩
    | ok a => exact ⟨rfl, hahead⟩

/-- To demand the end of the text says nothing about how much was read. -/
theorem wholly (h : p.Oblivious) : p.wholly.Oblivious :=
  h.bind fun a => Production.oblivious (p := do expectEnd; return a) inferInstance

/-- A call cannot see how much was read. -/
theorem entry (h : p.Oblivious) (name : String) : (entry name p).Oblivious where
  settled {s} hs := by
    obtain ⟨hpush, -⟩ := settled_pushContext (m := .free) name hs trivial
    obtain ⟨hsettled, hle⟩ := h.wholly.settled hpush
    rw [(pushContext_eq name s).1] at hle
    rw [entry_apply]
    unfold ParserState.settle
    rw [ParserState.cursor_conclude]
    exact ⟨hsettled.withJournal _, hle⟩
  agree {s t} hs hst := by
    obtain ⟨hpush, -⟩ := settled_pushContext (m := .free) name hs trivial
    obtain ⟨hresult, hahead⟩ := h.wholly.agree hpush (hst.pushContext name)
    rw [entry_apply, entry_apply, ← hresult]
    have hconclude := hahead.conclude name (p.wholly (s.pushContext name)).1
    exact ⟨rfl, ParserState.ahead_of hconclude.cursor rfl rfl rfl hconclude.preferences_eq
      hconclude.history_eq⟩

end Parser.Oblivious

/-- No session can tell how far the cursor has read ahead. -/
theorem Session.oblivious {α : Type} {q : Parser α} (h : Session q) : q.Oblivious := by
  induction h with
  | production h => exact h.oblivious
  | outcome _ ih => exact ih.outcome
  | attempt _ ih => exact ih.attempt
  | entry name _ ih => exact ih.entry name
  | history =>
    exact ⟨fun hs => ⟨hs, Nat.le_refl _⟩, fun _ hst => ⟨congrArg Except.ok hst.history_eq, hst⟩⟩
  | bind _ _ ihp ihf => exact ihp.bind ihf

/-! ### Going back after a failure -/

namespace ParserState

variable {s t : ParserState}

/-- Between two steps the cursor is settled. -/
theorem Reachable.settled (h : s.Reachable) : s.cursor.Settled := by
  induction h with
  | start text lexical preferences => exact (Cursor.settled_ofText text lexical).withJournal _
  | session _ hq ih => exact (hq.oblivious.settled ih).1
  | rollback checkpoint _ hle ih => exact settled_rollback ih hle

/-- No session can tell how much was read. -/
theorem Ahead.indistinguishable (h : s.Ahead t) (hs : s.cursor.Settled) :
    s.Indistinguishable t := by
  intro α q hq
  exact (hq.oblivious.agree hs h).1

end ParserState

namespace Parser

variable {α : Type} {p : Parser α} {s s' s₁ : ParserState}

/-- Whether a parse ends because the lexer refuses a lexeme, and the lexer stands behind the
place of that error. -/
def skipsRefused (p : Parser α) (s : ParserState) : Bool :=
  match p s with
  | (.error (.lexical e), s') => e.offset < s'.cursor.lexer.position.offset
  | _ => false

/-- A failed attempt goes back from where its production has failed. -/
theorem attempt_eq_none (h : attempt p s = (.ok none, s')) :
    ∃ e s₁, p s = (.error e, s₁) ∧ s' = (s₁.note (trialEvent e)).rollback s.checkpoint := by
  rw [attempt_apply] at h
  generalize p s = outcome at h
  obtain ⟨e | a, s₁⟩ := outcome
  · cases h
    exact ⟨e, s₁, rfl, rfl⟩
  · cases h

/-- An attempt at something that fails comes to nothing. -/
theorem attempt_of_isOk (h : (p s).1.isOk = false) :
    attempt p s = (.ok none, (attempt p s).2) := by
  rw [attempt_apply]
  generalize p s = outcome at h
  obtain ⟨e | a, s₁⟩ := outcome
  · rfl
  · cases h

/-- After a failed attempt the parse stands as before it, but has read ahead, unless a
refused lexeme was skipped. -/
theorem ahead_attempt {e : SyntaxError} (hp : Production .free p) (hs : s.cursor.Settled)
    (hfails : p s = (.error e, s₁)) (hskips : p.skipsRefused s = false) :
    s.Ahead ((s₁.note (trialEvent e)).rollback s.checkpoint) := by
  have hrun := hp.runs hs trivial
  unfold skipsRefused at hskips
  rw [hfails] at hrun hskips
  have hcursor : s.cursor.Ahead (s₁.cursor.restore s.cursor.position) := by
    refine hrun.course.ahead_restore hs ?_
    intro refusal hrefusal
    cases e with
    | lexical e =>
      cases hrefusal
      simpa using hskips
    | _ => cases hrefusal
  obtain ⟨ts, ⟨hposition, hsplits, hbuffer, htext⟩, hend, hdelivers⟩ := hcursor
  exact ParserState.ahead_of ⟨ts, ⟨hposition, hsplits, hbuffer, htext⟩, hend, hdelivers⟩ rfl rfl rfl
    hrun.preferences_eq.symm hrun.history_eq.symm

/-- If a refused lexeme was skipped, the production itself tells the difference: where it was
refused before, it now comes to something else. -/
theorem skipsRefused_of_attempt (hp : Production .free p) (hs : s'.cursor.Settled)
    (hattempt : attempt p s = (.ok none, s')) (hsame : (p s).1 = (p s').1) :
    p.skipsRefused s = false := by
  obtain ⟨error, s₁, hfails, rfl⟩ := attempt_eq_none hattempt
  have htrace := (hp.runs hs trivial).course.trace
  unfold skipsRefused
  rw [← hsame] at htrace
  rw [hfails] at htrace ⊢
  cases error with
  | lexical e =>
    -- the lexer stands where it stood after the refusal, and only points ahead
    have hle : s₁.cursor.lexer.position.offset ≤ e.offset := htrace.offset_le
    simpa using hle
  | _ => rfl

/-- A failed attempt leaves no trace, whatever the production is and whatever happened
before, exactly if no refused lexeme was skipped in it. Then every session goes on as if the
attempt had not been made. -/
theorem indistinguishable_attempt_iff (hp : Production .free p) (hs : s.Reachable)
    (h : attempt p s = (.ok none, s')) :
    s.Indistinguishable s' ↔ p.skipsRefused s = false := by
  constructor
  · intro hsame
    have hreached := hs.session (.attempt (.production hp))
    rw [h] at hreached
    exact skipsRefused_of_attempt hp hreached.settled h (hsame α p (.production hp))
  · intro hskips
    obtain ⟨e, s₁, hfails, rfl⟩ := attempt_eq_none h
    exact (ahead_attempt hp hs.settled hfails hskips).indistinguishable hs.settled

/-- An attempt at an expression goes back unnoticed from a character that starts no token.
After a bad octal number it does not: the number is skipped, and `x` is read instead. -/
theorem attempt_skips_refused_number :
    (ParserState.ofText "# x").Indistinguishable
        (attempt grammar.expression (.ofText "# x")).2 ∧
      ¬ (ParserState.ofText "09 x").Indistinguishable
        (attempt grammar.expression (.ofText "09 x")).2 := by
  have hp : Production .free grammar.expression := inferInstance
  constructor
  · refine (indistinguishable_attempt_iff hp (.start "# x" {} {}) (attempt_of_isOk ?_)).mpr ?_
    · decide +kernel
    · decide +kernel
  · intro hsame
    have hskips : grammar.expression.skipsRefused (.ofText "09 x") = true := by decide +kernel
    have hok : (grammar.expression (.ofText "09 x")).1.isOk = false := by decide +kernel
    have hnot := (indistinguishable_attempt_iff hp (.start "09 x" {} {})
      (attempt_of_isOk hok)).mp hsame
    rw [hskips] at hnot
    cases hnot

end Parser

end JavaSyntax
