import JavaSyntax.Proofs.FrontEnd.Layout
import JavaSyntax.Proofs.Grammar.Loops
import JavaSyntax.Proofs.Syntax.Attempt
import JavaSyntax.Proofs.Token.Room

/-!
# The parser makes progress

However a text is broken, a parse goes forward in it. What is read takes bytes, loops end by
themselves before their bounds are reached, and a parse that is given larger bounds comes to the
same result.
-/

namespace JavaSyntax

open JavaSyntax.Parser Mirror Work

/-! ### States in order -/

/-- A parser that keeps the cursor in order, whether it succeeds or not. -/
def Parser.KeepsOrder {α : Type} (p : Parser α) : Prop :=
  ∀ s : ParserState, s.cursor.InOrder → (p s).2.cursor.InOrder

namespace Parser.KeepsOrder

variable {α β : Type} {p : Parser α} {f : α → Parser β}

/-- Productions keep the cursor in order. -/
theorem of_production (h : Production .free p) : p.KeepsOrder := fun _ hs =>
  (h.runs hs.toSettled trivial).course.inOrder hs

/-- What keeps the cursor in order at every step does so altogether. -/
theorem bind (hp : p.KeepsOrder) (hf : ∀ a, (f a).KeepsOrder) : (p >>= f).KeepsOrder := by
  intro s hs
  have hfirst := hp s hs
  rw [bind_apply]
  generalize p s = outcome at hfirst
  obtain ⟨e | a, s'⟩ := outcome
  · exact hfirst
  · exact hf a s' hfirst

/-- To demand the end of the text after a production keeps the cursor in order. -/
theorem wholly (h : p.KeepsOrder) : p.wholly.KeepsOrder :=
  h.bind fun a => of_production (p := do expectEnd; return a) inferInstance

/-- To note a call down keeps the cursor in order. -/
theorem entry (h : p.KeepsOrder) (name : String) : (entry name p).KeepsOrder := by
  intro s hs
  have hpush : (s.pushContext name).cursor.InOrder := by
    rw [(pushContext_eq name s).1]
    exact hs.withJournal _
  rw [entry_apply]
  unfold ParserState.settle
  rw [ParserState.cursor_conclude]
  exact (h.wholly _ hpush).withJournal _

end Parser.KeepsOrder

/-- A session keeps the cursor in order, whatever is tried in it. -/
theorem Session.keepsOrder {α : Type} {q : Parser α} (h : Session q) : q.KeepsOrder := by
  induction h with
  | production h => exact .of_production h
  | outcome _ ih => exact ih
  | @attempt _ p hp ih =>
    intro s hs
    have hinside := ih s hs
    obtain ⟨-, hle⟩ := hp.oblivious.settled hs.toSettled
    rw [attempt_apply]
    generalize p s = outcome at hinside hle
    obtain ⟨e | a, s'⟩ := outcome
    · have hnoted := hinside.withJournal
        ((s'.note (trialEvent e)).note s.checkpoint.event).cursor.journal
      exact hnoted.restore hle
    · exact hinside
  | entry name _ ih => exact ih.entry name
  | history => exact fun _ hs => hs
  | bind _ _ ihp ihf => exact ihp.bind ihf

namespace ParserState

variable {s : ParserState}

/-- The cursor is in order in every state that a session can reach. -/
theorem Reachable.inOrder (h : s.Reachable) : s.cursor.InOrder := by
  induction h with
  | start text lexical preferences => exact (Cursor.inOrder_ofText text lexical).withJournal _
  | session _ hq ih => exact hq.keepsOrder _ ih
  | rollback _ _ hle ih => exact (ih.withJournal _).restore hle

/-! ### More room -/

/-- A state in which every loop may go round more often. -/
def withRoom (s : ParserState) (more : String) : ParserState :=
  { s with cursor := s.cursor.withRoom more }

/-- With more room, loops may go round once more for every byte of it. -/
theorem loopBound_withRoom (s : ParserState) (more : String) :
    loopBound (s.withRoom more) = loopBound s + more.utf8ByteSize := by
  change (s.cursor.text ++ more).utf8ByteSize + 1 = s.cursor.text.utf8ByteSize + 1 + _
  rw [String.utf8ByteSize_append]
  omega

/-- A state faces itself with more room, whatever it has read. -/
theorem facing_withRoom (h : s.cursor.InOrder) (more : String) :
    (Mirror.roomy s.cursor.text more).Facing s (s.withRoom more) :=
  ⟨h.spacious more, rfl, rfl, rfl⟩

end ParserState

/-- Errors at the same tokens are the same. -/
theorem Mirror.eq_of_fault_roomy {text more : String} {e f : SyntaxError}
    (h : (Mirror.roomy text more).Fault e f) : f = e := by
  cases h with
  | lexical h => exact congrArg SyntaxError.lexical (Eq.symm h)
  | unexpected _ h | restricted h | broken _ h _ | tooDeep h =>
    cases h
    rfl

/-- More room makes no difference to a parse. -/
theorem ParseMode.parser_withRoom (mode : ParseMode) {s : ParserState} (h : s.cursor.InOrder)
    (more : String) :
    (mode.parser (s.withRoom more)).1.map (·.bare) = (mode.parser s).1.map (·.bare) := by
  have hresults := results_of_facing mode (ParserState.facing_withRoom h more)
  generalize (mode.parser s).1 = first at hresults
  generalize (mode.parser (s.withRoom more)).1 = second at hresults
  cases hresults with
  | ok hlike => exact congrArg Except.ok hlike.symm
  | error hfault => exact congrArg Except.error (eq_of_fault_roomy hfault)

/-! ### Progress -/

/-- What is read from a state takes text. -/
structure ParserState.MakesProgress (s : ParserState) : Prop where
  /-- A production does not go back in the text, and keeps the cursor in order. -/
  production {α : Type} {p : Parser α} (hp : Production .free p) :
    (p s).2.cursor.InOrder ∧
      ∀ {a : α} {s' : ParserState}, p s = (.ok a, s') → s.cursor.offset ≤ s'.cursor.offset
  /-- A production that reads a node goes forward in the text. -/
  node {f : Form} {p : Parser (Node f)} (hp : grammar.ReadsNode p) {n : Node f}
      {s' : ParserState} (hrun : p s = (.ok n, s')) : s.cursor.offset < s'.cursor.offset
  /-- The declaration of a package goes forward in the text, if there is one. -/
  package {declaration : Node .packageDeclaration} {s' : ParserState}
      (hrun : grammar.package? s = (.ok (some declaration), s')) :
    s.cursor.offset < s'.cursor.offset
  /-- What goes on with a node that was begun does not go back in the text. -/
  continuation {f : Form} {p : Parser (Node f)} (hp : grammar.Continues p) {n : Node f}
      {s' : ParserState} (hrun : p s = (.ok n, s')) : s.cursor.offset ≤ s'.cursor.offset
  /-- A round of a loop after which the loop goes on goes forward in the text. -/
  round {α β : Type} {p : Parser β} {step : α → Parser (Step α β)} {first : α}
      (hp : grammar.Loops p step first) {a next : α} {s' : ParserState}
      (hrun : step a s = (.ok (.again next), s')) :
    s'.cursor.InOrder ∧ s.cursor.offset < s'.cursor.offset
  /-- A loop comes to what repeating its step without a bound comes to. -/
  loop {α β : Type} {p : Parser β} {step : α → Parser (Step α β)} {first : α}
      (hp : grammar.Loops p step first) : p = loop step first ∧ Unrolls step first s (p s)
  /-- A parse comes to the same with larger bounds for its loops. -/
  parse (mode : ParseMode) (more : String) :
    loopBound (s.withRoom more) = loopBound s + more.utf8ByteSize ∧
      (mode.parser (s.withRoom more)).1.map (·.bare) = (mode.parser s).1.map (·.bare)

/-- A parser that does not go back comes further in the text wherever it passes a token. -/
theorem Strides.offset_lt {α : Type} {P : α → Prop} {p : Parser α} {s s' : ParserState}
    {a : α} (hp : Strides s.cursor.position P p) (hs : s.cursor.InOrder)
    (hrun : p s = (.ok a, s')) :
    s'.cursor.InOrder ∧ s.cursor.offset ≤ s'.cursor.offset ∧
      (P a → s.cursor.offset < s'.cursor.offset) := by
  obtain ⟨hcourse, hlt⟩ := hp.strides hs.toSettled (Nat.le_refl _) hrun
  have hle := hs.offset_add_le hcourse
  exact ⟨hcourse.inOrder hs, by omega, fun ha => hs.offset_lt hcourse (hlt ha)⟩

/-- From every state in order a parse makes progress. -/
theorem ParserState.makesProgress {s : ParserState} (hs : s.cursor.InOrder) :
    s.MakesProgress where
  production hp :=
    ⟨KeepsOrder.of_production hp s hs, fun hrun =>
      (Strides.offset_lt (P := fun _ => False) inferInstance hs hrun).2.1⟩
  node hp _ _ hrun := (hp.passes.offset_lt hs hrun).2.2 trivial
  package hrun :=
    (Strides.offset_lt (P := fun d => d.isSome = true) inferInstance hs hrun).2.2 rfl
  continuation hp _ _ hrun := (hp.onward.offset_lt hs hrun).2.1
  round hp _ _ _ hrun := by
    obtain ⟨horder, -, hlt⟩ := (hp.strides _ _).offset_lt hs hrun
    exact ⟨horder, hlt trivial⟩
  loop hp := by
    refine ⟨hp.eq, ?_⟩
    rw [hp.eq]
    exact unrolls_loop hp.strides hs
  parse mode more := ⟨s.loopBound_withRoom more, mode.parser_withRoom hs more⟩

/-- Whatever the text is, the cursor is in order in every state that a session can reach, and
from a state in order a parse makes progress. -/
theorem parser_makes_progress :
    (∀ s : ParserState, s.Reachable → s.cursor.InOrder) ∧
      ∀ s : ParserState, s.cursor.InOrder → s.MakesProgress :=
  ⟨fun _ h => h.inOrder, fun _ h => ParserState.makesProgress h⟩

/-- At the start of a class whose brackets are left open the cursor is in order, so a parse of it
makes progress. -/
theorem parser_makes_progress_open_brackets :
    (ParserState.ofText "class A \x7b int a = ((b[").cursor.InOrder ∧
      (ParserState.ofText "class A \x7b int a = ((b[").MakesProgress := by
  have horder := parser_makes_progress.1 _ (.start "class A \x7b int a = ((b[" {} {})
  exact ⟨horder, parser_makes_progress.2 _ horder⟩

end JavaSyntax
