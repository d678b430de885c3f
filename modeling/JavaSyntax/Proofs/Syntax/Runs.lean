import JavaSyntax.Proofs.Syntax.Production
import JavaSyntax.Proofs.Token.Ahead

/-!
# What productions do to the state

Over the run of a production the cursor takes a course: it is settled again, has not gone
back before the position that the footing names, and has read on in the lexer until the
end of the run or until a refusal, which is then the error of the production. The
history of errors and the preferences stay as they are.
-/

namespace JavaSyntax

open Work

/-! ### Equations -/

namespace Parser

variable {α β : Type}

/-- A reading changes the cursor alone, and its refusals become errors of the parser. -/
theorem read_apply (x : Reading α) (s : ParserState) :
    read x s = ((x s.cursor).1.mapError .lexical, { s with cursor := (x s.cursor).2 }) := rfl

/-- Readings in sequence are steps in sequence. -/
theorem read_bind (x : Reading α) (f : α → Reading β) :
    read (x >>= f) = read x >>= fun a => read (f a) := by
  funext s
  rw [bind_apply, read_apply, read_apply, bind_apply]
  rcases x s.cursor with ⟨_ | _, _⟩ <;> rfl

/-- Taking a closing angle is a reading of the cursor. -/
theorem closing?_eq : closing? = read Cursor.closing? := by
  rw [Cursor.closing?, read_bind]
  unfold closing? splitGreater advance
  congr
  funext found
  cases found with
  | false => rfl
  | true =>
    rw [if_pos rfl, if_pos rfl, read_bind]
    rfl

/-- A parser that asks for its position goes on with the index of the cursor. -/
theorem position_bind_apply (f : Nat → Parser α) (s : ParserState) :
    (position >>= f) s = f s.cursor.position s := rfl

/-- A node takes its span and its text from the tokens since its start, and nothing moves. -/
theorem node_apply {f : Form} (start : Nat) (tree : Tree f) (s : ParserState) :
    node start tree s = (.ok (.located tree (s.cursor.spanFrom start)
      (s.cursor.sourceText (s.cursor.spanFrom start))), s) := rfl

/-- The state inside a guarded production. -/
def entered (context : String) (s : ParserState) : ParserState :=
  { s with depth := s.depth + 1 }.pushContext context

/-- A guarded production refuses at the greatest depth, and otherwise goes one deeper and comes
back. -/
theorem guarded_apply (context : String) (p : Parser α) (s : ParserState) :
    guarded context p s =
      if Limits.maxParseDepth ≤ s.depth then
        match peek 0 s with
        | (.ok t, s') => (.error (.tooDeep t.display t.span), s'.note (depthEvent s.depth context))
        | (.error e, s') => (.error e, s')
      else ((p (entered context s)).1, (p (entered context s)).2.leave) := by
  unfold guarded enter
  rw [bind_apply, bind_apply, get_apply]
  by_cases hdepth : Limits.maxParseDepth ≤ s.depth
  · simp only [if_pos hdepth, bind_apply]
    rcases peek 0 s with ⟨_ | t, s'⟩ <;> rfl
  · simp only [if_neg hdepth]
    rfl

/-- A production with lambdas switched on or off restores the setting afterwards. -/
theorem withLambdas_apply (allowed : Bool) (p : Parser α) (s : ParserState) :
    withLambdas allowed p s =
      ((p { s with lambdas := allowed }).1,
        { (p { s with lambdas := allowed }).2 with lambdas := s.lambdas }) := rfl

/-- An unexpected token is never a result. -/
theorem unexpected_ne_ok (expected : String) (s : ParserState) (a : α) :
    (unexpected expected s).1 ≠ .ok a := by
  unfold unexpected
  rw [bind_apply]
  rcases peek 0 s with ⟨_ | _, _⟩ <;> exact nofun

/-- The error of the lexer with which a parse failed, if it did. -/
def refusal? : Except SyntaxError α → Option LexError
  | .ok _ => none
  | .error (.lexical e) => some e
  | .error _ => none

/-- A refusal of the lexer is still one when it is an error of the parser. -/
theorem refusal?_mapError (r : Except LexError α) :
    refusal? (r.mapError .lexical) = Cursor.refusal? r := by
  cases r <;> rfl

/-- Errors of the parser itself are no refusals. -/
theorem refusal?_of_isLexical {e : SyntaxError} (he : e.isLexical = false) :
    refusal? (.error e : Except SyntaxError α) = none := by
  cases e with
  | lexical => cases he
  | _ => rfl

/-- Whether an error is a refusal does not depend on the type of the missing result. -/
theorem refusal?_error (e : SyntaxError) :
    refusal? (.error e : Except SyntaxError α) = refusal? (.error e : Except SyntaxError β) := by
  cases e <;> rfl

end Parser

/-! ### Footings -/

namespace Footing

variable {m m' : Footing} {c c' : Cursor} {o : Option LexError}

/-- What a footing says about where the parse stands. -/
def Holds : Footing → Cursor → Prop
  | .free, _ | .looking, _ => True
  | .marked n, c => n ≤ c.position
  | .started n, c => n ≤ c.position ∧ n < c.buffer.size

/-- The position before which a production on a footing does not go back. -/
def base : Footing → Cursor → Nat
  | .free, c | .looking, c => c.position
  | .marked n, _ | .started n, _ => n

/-- The place that a footing protects is not ahead of the cursor. -/
theorem Holds.base_le (h : m.Holds c) : m.base c ≤ c.position := by
  cases m with
  | free | looking => exact Nat.le_refl _
  | marked n => exact h
  | started n => exact h.1

/-- A parse on a footing that holds may go back to where it stands. -/
theorem Holds.atMost (h : m.Holds c) : m.AtMost c.position := by
  cases m with
  | free | looking => trivial
  | marked n => exact h
  | started n => exact h.1

/-- A footing is kept by a course that does not go back before it. -/
theorem Holds.course (h : m.Holds c) (hcourse : Cursor.Course (m.base c) c o c') : m.Holds c' := by
  cases m with
  | free | looking => trivial
  | marked n => exact hcourse.le_position
  | started n => exact ⟨hcourse.le_position, hcourse.lt_size n (Nat.le_refl n) h.2⟩

/-- A course does not move the protected place back. -/
theorem base_le_course (hcourse : Cursor.Course (m.base c) c o c') : m.base c ≤ m.base c' := by
  cases m with
  | free | looking => exact hcourse.le_position
  | marked n | started n => exact Nat.le_refl n

/-- Whoever relies on less may stand where more holds, and goes back no further. -/
theorem Covers.holds (h : m.Covers m') (hm : m'.Holds c) :
    m.Holds c ∧ m'.base c ≤ m.base c ∧ (m' = .looking → m = .looking) := by
  cases m with
  | looking => exact ⟨trivial, hm.base_le, fun _ => rfl⟩
  | free => exact ⟨trivial, hm.base_le, fun hlooking => absurd hlooking h⟩
  | marked n =>
    rcases h with rfl | rfl
    · exact ⟨hm, Nat.le_refl n, fun hlooking => absurd hlooking Footing.Passive.ne_looking⟩
    · exact ⟨hm.1, Nat.le_refl n, fun hlooking => absurd hlooking Footing.Passive.ne_looking⟩
  | started n =>
    cases h
    exact ⟨hm, Nat.le_refl n, fun hlooking => absurd hlooking Footing.Passive.ne_looking⟩

end Footing

/-! ### Runs -/

/-- What the run of a production on a footing comes to. -/
structure Runs {α : Type} (m : Footing) (s : ParserState)
    (outcome : Except SyntaxError α × ParserState) : Prop where
  course : Cursor.Course (m.base s.cursor) s.cursor (Parser.refusal? outcome.1) outcome.2.cursor
  looked : m = .looking → ∀ a, outcome.1 = .ok a →
    s.cursor.position < outcome.2.cursor.buffer.size
  history_eq : outcome.2.history = s.history
  preferences_eq : outcome.2.preferences = s.preferences

namespace Runs

variable {α β : Type} {m m' m₁ m₂ : Footing} {s s' : ParserState}
  {outcome : Except SyntaxError α × ParserState} {p : Parser α} {f : α → Parser β}

/-- A run may be read on a footing that protects less. -/
theorem relax (h : Runs m s outcome) (hbase : m'.base s.cursor ≤ m.base s.cursor)
    (hlooking : m' = .looking → m = .looking) : Runs m' s outcome where
  course := h.course.mono hbase
  looked hm := h.looked (hlooking hm)
  history_eq := h.history_eq
  preferences_eq := h.preferences_eq

/-- A run that leaves everything as it is, unless something has to be looked at. -/
theorem stay (hs : s.cursor.Settled) (hm : m.Holds s.cursor) {r : Except SyntaxError α}
    (hr : Parser.refusal? r = none) (hlooking : m = .looking → ∀ a, r ≠ .ok a) :
    Runs m s (r, s) where
  course := by
    rw [hr]
    exact .refl hs hm.base_le
  looked hm a ha := absurd ha (hlooking hm a)
  history_eq := rfl
  preferences_eq := rfl

/-- A reading that looks is a run that only looks. -/
theorem read {x : Reading α} (h : Cursor.Looks s.cursor (x s.cursor)) :
    Runs .looking s (Parser.read x s) where
  course := by
    rw [Parser.read_apply, Parser.refusal?_mapError]
    exact h.course
  looked _ a ha := by
    rw [Parser.read_apply] at ha ⊢
    cases hx : (x s.cursor).1 with
    | error e =>
      rw [hx] at ha
      cases ha
    | ok b => exact h.looked b hx
  history_eq := rfl
  preferences_eq := rfl

/-- A run goes on where the one before it has ended, unless that failed. -/
theorem bind (m₂ : Footing) (hs : s.cursor.Settled) (hp : Runs m₁ s (p s))
    (hbase : m.base s.cursor ≤ m₁.base s.cursor) (hlooking : m = .looking → m₁ = .looking)
    (hf : ∀ a s', p s = (.ok a, s') →
      Runs m₂ s' (f a s') ∧ m₁.base s.cursor ≤ m₂.base s'.cursor) :
    Runs m s ((p >>= f) s) := by
  rw [bind_apply]
  generalize p s = outcome at hp hf
  obtain ⟨e | a, s'⟩ := outcome
  · refine ⟨?_, nofun, hp.history_eq, hp.preferences_eq⟩
    rw [Parser.refusal?_error (β := α)]
    exact hp.course.mono hbase
  · obtain ⟨hrun, hle⟩ := hf a s' rfl
    refine ⟨?_, ?_, ?_, ?_⟩
    · exact (Cursor.Course.trans hs hp.course hrun.course hle).mono hbase
    · intro hm b _
      obtain rfl := hlooking hm
      exact hrun.course.lt_size _ hle (hp.looked rfl a rfl)
    · exact hrun.history_eq.trans hp.history_eq
    · exact hrun.preferences_eq.trans hp.preferences_eq

/-- A run may start from a state that differs only in its notes and its frame. -/
theorem before (hs : s.cursor.Settled) (hm : m.Holds s.cursor) (h : Runs m s' outcome)
    (hcursor : s'.cursor = { s.cursor with journal := s'.cursor.journal })
    (hhistory : s'.history = s.history) (hpreferences : s'.preferences = s.preferences) :
    Runs m s outcome := by
  have hposition : s'.cursor.position = s.cursor.position := by rw [hcursor]
  have hcourse : Cursor.Course (m.base s.cursor) s.cursor none s'.cursor := by
    rw [hcursor]
    exact (Cursor.Course.refl hs hm.base_le).withJournal _
  refine ⟨.trans hs hcourse h.course (Footing.base_le_course hcourse), ?_, ?_, ?_⟩
  · rw [← hposition]
    exact h.looked
  · rw [h.history_eq, hhistory]
  · rw [h.preferences_eq, hpreferences]

/-- A change after a run in which neither the cursor nor what stays the same is involved. -/
theorem after (h : Runs m s outcome) (hcursor : s'.cursor = outcome.2.cursor)
    (hhistory : s'.history = outcome.2.history)
    (hpreferences : s'.preferences = outcome.2.preferences) : Runs m s (outcome.1, s') where
  course := by
    rw [hcursor]
    exact h.course
  looked := by
    rw [hcursor]
    exact h.looked
  history_eq := hhistory.trans h.history_eq
  preferences_eq := hpreferences.trans h.preferences_eq

end Runs

namespace Parser

/-- A context on the stack changes nothing but the frame and the notes. -/
theorem pushContext_eq (context : String) (s : ParserState) :
    (s.pushContext context).cursor =
        { s.cursor with journal := (s.pushContext context).cursor.journal } ∧
      (s.pushContext context).history = s.history ∧
      (s.pushContext context).preferences = s.preferences := by
  unfold ParserState.pushContext
  dsimp only
  split <;> exact ⟨rfl, rfl, rfl⟩

/-- What holds of the cursor before a context is put on the stack holds afterwards. -/
theorem settled_pushContext {m : Footing} {s : ParserState} (context : String)
    (hs : s.cursor.Settled) (hm : m.Holds s.cursor) :
    (s.pushContext context).cursor.Settled ∧ m.Holds (s.pushContext context).cursor := by
  rw [(pushContext_eq context s).1]
  refine ⟨hs.withJournal _, ?_⟩
  cases m <;> exact hm

/-- A guarded production runs like the production itself, unless it is nested too deep. -/
theorem runs_guarded {α : Type} {m : Footing} {p : Parser α} {s : ParserState} (context : String)
    (h : ∀ {s : ParserState}, s.cursor.Settled → m.Holds s.cursor → Runs m s (p s))
    (hs : s.cursor.Settled) (hm : m.Holds s.cursor) : Runs m s (guarded context p s) := by
  rw [guarded_apply]
  split
  · have hpeek := Runs.read (hs.peekAhead 0).1
    change Runs .looking s (peek 0 s) at hpeek
    generalize peek 0 s = outcome at hpeek
    have hcourse := hpeek.course.mono hm.base_le
    obtain ⟨e | t, s'⟩ := outcome
    · refine ⟨?_, nofun, hpeek.history_eq, hpeek.preferences_eq⟩
      rw [refusal?_error (β := Token)]
      exact hcourse
    · exact ⟨hcourse.withJournal _, nofun, hpeek.history_eq, hpeek.preferences_eq⟩
  · obtain ⟨hcursor, hhistory, hpreferences⟩ :=
      pushContext_eq context { s with depth := s.depth + 1 }
    obtain ⟨hsettled, hholds⟩ :=
      settled_pushContext (s := { s with depth := s.depth + 1 }) context hs hm
    have hrun := (h hsettled hholds).before hs hm hcursor hhistory hpreferences
    exact hrun.after rfl rfl rfl

end Parser

/-- Every production runs as its footing demands. -/
theorem Production.runs {α : Type} {m : Footing} {p : Parser α} (h : Production m p)
    {s : ParserState} (hs : s.cursor.Settled) (hm : m.Holds s.cursor) : Runs m s (p s) := by
  induction h generalizing s with
  | relax h hcovers ih =>
    obtain ⟨hholds, hbase, hlooking⟩ := hcovers.holds hm
    exact (ih hs hholds).relax hbase hlooking
  | pure a => exact .stay hs hm rfl nofun
  | throw he => exact .stay hs hm (Parser.refusal?_of_isLexical he) nofun
  | @bind _ _ m _ _ hne hp hf ihp ihf =>
    have hrun := ihp hs hm
    refine .bind m hs hrun (Nat.le_refl _) id ?_
    intro a s' hok
    rw [hok] at hrun
    exact ⟨ihf a hrun.course.settled (hm.course hrun.course), Footing.base_le_course hrun.course⟩
  | look hp hf ihp ihf =>
    have hrun := ihp hs hm
    refine .bind .free hs hrun (Nat.le_refl _) id ?_
    intro a s' hok
    rw [hok] at hrun
    exact ⟨ihf a hrun.course.settled trivial, hrun.course.le_position⟩
  | observe hg hf ih => exact ih _ hs hm
  | peek n => exact .read (hs.peekAhead n).1
  | advance => exact .read hs.advance
  | closing? =>
    rw [Parser.closing?_eq]
    exact .read hs.closing?
  | note event => exact ⟨(Cursor.Course.refl hs (Nat.le_refl _)).withJournal _, nofun, rfl, rfl⟩
  | guarded context h ih => exact Parser.runs_guarded context ih hs hm
  | withLambdas allowed h ih =>
    rw [Parser.withLambdas_apply]
    have hrun := ih (s := { s with lambdas := allowed }) hs hm
    exact (hrun.before hs hm rfl rfl rfl).after rfl rfl rfl
  | start hp hf ihp ihf =>
    rw [Parser.position_bind_apply]
    have hrun := ihp hs trivial
    refine .bind (.started s.cursor.position) hs hrun hm.base_le (fun _ => rfl) ?_
    intro a s' hok
    have hlooked := hrun.looked rfl a (by rw [hok])
    rw [hok] at hrun hlooked
    exact ⟨ihf _ a hm.atMost hrun.course.settled ⟨hrun.course.le_position, hlooked⟩, Nat.le_refl _⟩
  | mark hne hf ih =>
    rw [Parser.position_bind_apply]
    exact (ih _ hm.atMost hs (Nat.le_refl _)).relax hm.base_le (fun hm => absurd hm hne)
  | restore n => exact ⟨(Cursor.Course.refl hs hm).restore (Nat.le_refl n) hm, nofun, rfl, rfl⟩
  | goBack h ih =>
    have hrun := ih hs hm
    exact ⟨hrun.course.restore (Nat.le_refl _) hrun.course.le_position, nofun, hrun.history_eq,
      hrun.preferences_eq⟩
  | node tree h => exact .stay hs hm rfl nofun

end JavaSyntax
