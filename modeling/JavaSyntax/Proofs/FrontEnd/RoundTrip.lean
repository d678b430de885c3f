import JavaSyntax.FrontEnd.Basic
import JavaSyntax.Proofs.Syntax.Attempt
import JavaSyntax.Proofs.Tree.Bare

/-!
# When the check of a text passes

A text that can be parsed can be split into tokens, and these always give it back. So the
check of such a text depends on its canonical source alone: it passes exactly if that can be
parsed again and its tree is printed as it is.
-/

namespace JavaSyntax

open Work

/-! ### A parse of the whole text reads all of it -/

namespace Parser

variable {α : Type}

/-- Nothing is left only at the end of the text. -/
theorem exists_isEnd_of_expectEnd {s s' : ParserState} (hs : s.cursor.Settled)
    (h : expectEnd s = (.ok (), s')) : ∃ t ∈ s'.cursor.buffer.toList, t.isEnd = true := by
  unfold expectEnd at h
  rw [bind_apply, peek, read_apply] at h
  rcases hpeek : Cursor.peekAhead 0 s.cursor with ⟨e | t, c'⟩
  · rw [hpeek] at h
    cases h
  rw [hpeek] at h
  change (unless t.isEnd do unexpected "end of input" : Parser Unit)
    { s with cursor := c' } = _ at h
  cases hend : t.isEnd with
  | false =>
    rw [hend] at h
    exact absurd (congrArg Prod.fst h) (unexpected_ne_ok _ _ ())
  | true =>
    rw [hend] at h
    cases h
    refine ⟨t, ?_, hend⟩
    have hcurrent := hs.getElem?_current hpeek
    rw [← Array.getElem?_toList] at hcurrent
    exact List.mem_of_getElem? hcurrent

/-- A production that takes the whole text has seen its end. -/
theorem exists_isEnd_of_wholly {p : Parser α} {s s' : ParserState} {a : α}
    (hp : Production .free p) (hs : s.cursor.Settled) (h : p.wholly s = (.ok a, s')) :
    ∃ t ∈ s'.cursor.buffer.toList, t.isEnd = true := by
  unfold wholly at h
  rw [bind_apply] at h
  have hsettled := (hp.runs hs trivial).course.settled
  generalize p s = outcome at h hsettled
  obtain ⟨e | b, s₁⟩ := outcome
  · cases h
  dsimp only at h
  rw [bind_apply] at h
  rcases hend : expectEnd s₁ with ⟨e | ⟨⟩, s₂⟩
  · rw [hend] at h
    cases h
  · rw [hend] at h
    cases h
    exact exists_isEnd_of_expectEnd hsettled hend

/-- A text that an entry takes can be split into tokens. -/
theorem tokenize_of_entry {p : Parser α} (hp : Production .free p) {text name : String}
    {lexical : LexicalPreferences} {preferences : SyntaxPreferences} {a : α}
    (h : (entry name p (.ofText text lexical preferences)).1 = .ok a) :
    (tokenize text lexical).failure = none := by
  rw [entry_apply] at h
  generalize hstart : (ParserState.ofText text lexical preferences).pushContext name = s at h
  have hcursor := (pushContext_eq name (.ofText text lexical preferences)).1
  rw [hstart] at hcursor
  have hs : s.cursor.Settled := by
    rw [hcursor]
    exact (Cursor.settled_ofText text lexical).withJournal _
  have hwhole : Production .free p.wholly := .bind Footing.Passive.ne_looking hp fun a => inferInstance
  have hcourse := (hwhole.runs hs trivial).course
  rcases hrun : p.wholly s with ⟨e | b, s'⟩
  · rw [hrun] at h
    cases h
  obtain ⟨t, ht, hend⟩ := exists_isEnd_of_wholly hp hs hrun
  rw [hrun] at hcourse
  have hsplits := hcourse.settled.splitsTo
  cases hcourse.trace with
  | @read _ ts hgains =>
    have hwholes : s'.cursor.wholes = ts := by
      rw [hgains.wholes_eq, hcursor]
      rfl
    have hdelivers : (Lexer.ofText text lexical).Delivers ts s'.cursor.lexer := by
      have hgained := hgains.delivers
      rwa [hcursor] at hgained
    have hmem := hsplits.mem_of_isEnd ht hend
    rw [hwholes] at hmem
    exact (hdelivers.runFrom_of_end (hdelivers.isEnd_getLast? hmem hend) [] []).1

end Parser

/-! ### Modes -/

namespace ParseMode

/-- The production that makes the outermost node. -/
def root : (mode : ParseMode) → Parser (Node mode.form)
  | compilationUnit => grammar.compilationUnit
  | statement => grammar.statement
  | expression => grammar.expression
  | type => grammar.type

/-- The production of every mode follows its course. -/
theorem production_root (mode : ParseMode) : Production .free mode.root := by
  cases mode with
  | compilationUnit => exact inferInstanceAs (Production .free grammar.compilationUnit)
  | statement => exact inferInstanceAs (Production .free grammar.statement)
  | expression => exact inferInstanceAs (Production .free grammar.expression)
  | type => exact inferInstanceAs (Production .free grammar.type)

/-- The entry of every mode runs the production of the mode under a name of its own. -/
theorem exists_parser_eq (mode : ParseMode) : ∃ name, mode.parser = Parser.entry name mode.root := by
  cases mode <;> exact ⟨_, rfl⟩

end ParseMode

/-! ### Checks -/

namespace FrontEnd

variable {text : String} {mode : ParseMode}

/-- Every mode runs a production of the grammar on the whole text. -/
theorem exists_production (mode : ParseMode) :
    ∃ (name : String) (p : Parser (Node mode.form)),
      Production .free p ∧ mode.parser = Parser.entry name p := by
  obtain ⟨name, hparser⟩ := mode.exists_parser_eq
  exact ⟨name, mode.root, mode.production_root, hparser⟩

/-- What a parse comes to does not depend on what was noted down before. -/
theorem parse_apply (text : String) (mode : ParseMode) (events : Array LogEvent) :
    parse text mode {} {} events =
      ((parse text mode).evaluate,
        events ++ (mode.parser (.ofText text {} {})).2.cursor.journal) := rfl

/-- A parse with the usual preferences comes to what the production of its mode comes to. -/
theorem evaluate_parse (text : String) (mode : ParseMode) :
    (parse text mode).evaluate = (mode.parser (.ofText text {} {})).1.mapError .ofSyntax := rfl

/-- A text that can be parsed can be split into tokens, and these give it back. -/
theorem tokenize_of_parse {n : Node mode.form} (h : (parse text mode).evaluate = .ok n) :
    ∃ tokens, (tokenize text {}).toExcept = .ok tokens ∧ reconstruct tokens = text := by
  obtain ⟨name, p, hp, hparser⟩ := exists_production mode
  rw [evaluate_parse, hparser] at h
  have hentry : (Parser.entry name p (.ofText text {} {})).1 = .ok n := by
    generalize (Parser.entry name p (.ofText text {} {})).1 = result at h
    cases result with
    | error e => cases h
    | ok a =>
      cases h
      rfl
  have hok := LexRun.toExcept_eq_ok.mpr ⟨Parser.tokenize_of_entry hp hentry, rfl⟩
  exact ⟨_, hok, (tiles_of_tokenize hok).2⟩

/-- The check of a text that can be parsed, step by step. -/
theorem evaluate_checkRoundTrip {n : Node mode.form} {tokens : List Token}
    (htokens : (tokenize text {}).toExcept = .ok tokens)
    (hparse : (parse text mode).evaluate = .ok n) :
    (checkRoundTrip text mode).evaluate =
      (parse n.canonical mode).evaluate.map fun n' =>
        ⟨tokens.length, reconstruct tokens == text, n.canonical == n'.canonical⟩ := by
  have hread : FrontEnd.tokens text {} #[] =
      (.ok tokens, #[] ++ (tokenize text {}).loggedEvents.toArray) := by
    unfold FrontEnd.tokens
    dsimp only
    rw [htokens]
    rfl
  unfold evaluate checkRoundTrip
  rw [bind_apply, hread]
  dsimp only
  rw [bind_apply, parse_apply, hparse]
  dsimp only
  rw [bind_apply, parse_apply]
  change _ = (parse n.canonical mode).evaluate.map _
  cases (parse n.canonical mode).evaluate with
  | error e => rfl
  | ok n' => rfl

/-- A check passes exactly if the canonical source of the tree can be parsed again and its tree
has the same canonical source. -/
theorem checkRoundTrip_passes_iff {n : Node mode.form}
    (h : (parse text mode).evaluate = .ok n) :
    (∃ report, (checkRoundTrip text mode).evaluate = .ok report ∧ report.passed = true) ↔
      ∃ n', (parse n.canonical mode).evaluate = .ok n' ∧ n'.canonical = n.canonical := by
  obtain ⟨tokens, htokens, htext⟩ := tokenize_of_parse h
  rw [evaluate_checkRoundTrip htokens h, htext, beq_self_eq_true]
  cases (parse n.canonical mode).evaluate with
  | error e => simp [Except.map]
  | ok n' => simp [Except.map, RoundTrip.passed, eq_comm (a := n.canonical)]

end FrontEnd

end JavaSyntax
