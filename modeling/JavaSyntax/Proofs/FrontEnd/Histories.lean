import JavaSyntax.Journal.Service
import JavaSyntax.Proofs.FrontEnd.RoundTrip
import Mathlib.Data.List.DropRight

/-!
# Histories hold what came last

The log in memory and the errors that a parser remembers are of bounded length, and lose
their oldest item when they are full. Whatever is done one after another, the log holds the
last of the events that matter enough since it was cleared, and a parser remembers the last
of the errors that its calls came to.
-/

namespace JavaSyntax

/-- Items are the last of all items, as many of them as there is room for. -/
structure AreLast {α : Type} (capacity : Nat) (all kept : List α) : Prop where
  isSuffix : kept <:+ all
  length_eq : kept.length = min all.length capacity

/-- Items that are kept by throwing away the oldest are the last ones. -/
theorem areLast_keepRecent {α : Type} (capacity : Nat) (all : List α) :
    AreLast capacity all (keepRecent capacity all) :=
  ⟨List.drop_suffix _ _, length_keepRecent capacity all⟩

/-! ### The log in memory -/

/-- What may be done with a log: an event is noted down, or all are forgotten. -/
inductive LogAction where
  | note (event : LogEvent)
  | clear

namespace LogAction

/-- The event that is noted down, if one is. -/
def event? : LogAction → Option LogEvent
  | note event => some event
  | clear => none

/-- Does something with the log of a service. -/
def apply (s : LogService) : LogAction → LogService
  | note event => s.note event
  | clear => s.clear

/-- The events that are noted down after the log was last cleared, oldest first. -/
def sinceClear (actions : List LogAction) : List LogEvent :=
  (actions.rtakeWhile (·.event?.isSome)).filterMap event?

/-- Before anything is done nothing is noted down. -/
theorem sinceClear_nil : sinceClear [] = [] := by
  rw [sinceClear, List.rtakeWhile_nil, List.filterMap_nil]

/-- An event that is noted down is the last one. -/
theorem sinceClear_note (actions : List LogAction) (event : LogEvent) :
    sinceClear (actions ++ [note event]) = sinceClear actions ++ [event] := by
  rw [sinceClear, List.rtakeWhile_concat_pos _ _ _ rfl, List.filterMap_append]
  rfl

/-- Nothing that was noted down survives clearing the log. -/
theorem sinceClear_clear (actions : List LogAction) : sinceClear (actions ++ [clear]) = [] := by
  rw [sinceClear, List.rtakeWhile_concat_neg _ _ _ (by decide), List.filterMap_nil]

/-- Done one after another from an empty log on, actions leave what the log keeps of the events
since it was cleared. The induction is on the last action, since what was done before a `clear`
no longer counts. -/
theorem foldl_apply_eq (minLevel : LogLevel) (actions : List LogAction) :
    actions.foldl apply ⟨minLevel, {}⟩ =
      ⟨minLevel, .ofEvents ((sinceClear actions).filter (·.level.rank ≤ minLevel.rank))⟩ := by
  induction actions using List.reverseRecOn with
  | nil => rw [List.foldl_nil, sinceClear_nil, List.filter_nil, EventLog.ofEvents_nil]
  | append_singleton actions action ih =>
    rw [List.foldl_append, ih, List.foldl_cons, List.foldl_nil]
    cases action with
    | clear =>
      rw [sinceClear_clear, List.filter_nil, EventLog.ofEvents_nil, apply, LogService.clear]
    | note event =>
      rw [sinceClear_note, List.filter_append, apply, LogService.note, LogService.keeps]
      by_cases hkeeps : event.level.rank ≤ minLevel.rank
      · rw [if_pos (by simpa using hkeeps), EventLog.add_ofEvents,
          List.filter_cons_of_pos (by simpa using hkeeps), List.filter_nil]
      · rw [if_neg (by simpa using hkeeps), List.filter_cons_of_neg (by simpa using hkeeps),
          List.filter_nil, List.append_nil]

end LogAction

/-! ### The errors of a parser -/

/-- The error that a call has failed with, if it has. -/
def failure? {α : Type} : Except SyntaxError α → Option SyntaxError
  | .ok _ => none
  | .error e => some e

namespace ParserState

/-- Calls entries of one parser one after another. Gives the errors of those that fail, and the
state in the end. -/
def callAll : List ParseMode → ParserState → List SyntaxError × ParserState
  | [], s => ([], s)
  | mode :: modes, s =>
    let (result, s) := mode.parser s
    let (errors, s) := callAll modes s
    ((failure? result).toList ++ errors, s)

/-- A parser has been called, and remembers what its preferences say of the errors that its
calls have come to. -/
structure Remembers (errors : List SyntaxError) (s : ParserState) : Prop where
  settled : s.cursor.Settled
  history_eq : s.history =
    if s.preferences.recordErrorHistory then keepRecent Limits.maxErrorHistory errors else []

/-- A parser that has not been called remembers no errors. -/
theorem remembers_ofText (text : String) (lexical : LexicalPreferences)
    (preferences : SyntaxPreferences) : (ofText text lexical preferences).Remembers [] where
  settled := (Cursor.settled_ofText text lexical).withJournal _
  history_eq := by simp [ofText]

variable {α : Type} {errors : List SyntaxError} {s : ParserState}

/-- Another error is remembered, or none are. -/
theorem Remembers.record (h : s.Remembers errors) (e : SyntaxError) :
    (s.record e).Remembers (errors ++ [e]) := by
  have hroom : 0 < Limits.maxErrorHistory := by decide
  have hhistory := h.history_eq
  unfold ParserState.record
  by_cases hrecord : s.preferences.recordErrorHistory = true
  · rw [if_pos hrecord] at hhistory ⊢
    refine ⟨h.settled, ?_⟩
    dsimp only
    rw [if_pos hrecord, hhistory, pushDroppingOldest_keepRecent hroom]
  · rw [if_neg hrecord] at hhistory ⊢
    refine ⟨h.settled, ?_⟩
    rw [if_neg hrecord, hhistory]

/-- The outcome of a call is remembered if it is an error. -/
theorem Remembers.conclude (h : s.Remembers errors) (name : String)
    (result : Except SyntaxError α) :
    (s.conclude name result).Remembers (errors ++ (failure? result).toList) := by
  cases result with
  | ok a =>
    rw [failure?, Option.toList_none, List.append_nil]
    unfold ParserState.conclude
    dsimp only
    split
    · exact ⟨h.settled.withJournal _, h.history_eq⟩
    · exact h
  | error e => exact ⟨(h.record e).settled.withJournal _, (h.record e).history_eq⟩

/-- A call of an entry adds its error, if it fails, and nothing else. While the production runs,
the history stays as it is. -/
theorem Remembers.call (h : s.Remembers errors) (mode : ParseMode) :
    (mode.parser s).2.Remembers (errors ++ (failure? (mode.parser s).1).toList) ∧
      (mode.parser s).2.preferences = s.preferences := by
  obtain ⟨name, hparser⟩ := mode.exists_parser_eq
  rw [hparser, Parser.entry_apply]
  have hwhole : Production .free mode.root.wholly :=
    .bind Footing.Passive.ne_looking mode.production_root fun a => inferInstance
  obtain ⟨hsettled, -⟩ := Parser.settled_pushContext (m := .free) name h.settled trivial
  obtain ⟨-, hhistory, hpreferences⟩ := Parser.pushContext_eq name s
  have hruns := hwhole.runs hsettled trivial
  generalize mode.root.wholly (s.pushContext name) = outcome at hruns
  obtain ⟨result, s'⟩ := outcome
  have hremembers : s'.Remembers errors := by
    refine ⟨hruns.course.settled, ?_⟩
    rw [hruns.history_eq, hruns.preferences_eq, hhistory, hpreferences]
    exact h.history_eq
  have hconclude := hremembers.conclude name result
  refine ⟨⟨hconclude.settled, hconclude.history_eq⟩, ?_⟩
  have hkeeps : (s'.conclude name result).preferences = s'.preferences := by
    unfold ParserState.conclude ParserState.record
    cases result <;> dsimp only <;> split <;> rfl
  exact hkeeps.trans (hruns.preferences_eq.trans hpreferences)

/-- However often entries are called, the errors of all calls are remembered. -/
theorem Remembers.callAll (h : s.Remembers errors) (modes : List ParseMode) :
    (callAll modes s).2.Remembers (errors ++ (callAll modes s).1) ∧
      (callAll modes s).2.preferences = s.preferences := by
  induction modes generalizing errors s with
  | nil =>
    refine ⟨?_, rfl⟩
    rw [ParserState.callAll, List.append_nil]
    exact h
  | cons mode modes ih =>
    obtain ⟨hcall, hpreferences⟩ := h.call mode
    obtain ⟨hrest, hsame⟩ := ih hcall
    rw [List.append_assoc] at hrest
    exact ⟨hrest, hsame.trans hpreferences⟩

end ParserState

/-- The log in memory holds the last of the events that matter enough and were noted down since
it was cleared. A parser that is to remember errors remembers the last of those that its calls
have failed with, and one that is not remembers none. -/
theorem histories_hold_last (minLevel : LogLevel) (actions : List LogAction) (text : String)
    (lexical : LexicalPreferences) (preferences : SyntaxPreferences) (modes : List ParseMode) :
    let calls := ParserState.callAll modes (.ofText text lexical preferences)
    AreLast Limits.logBufferSize
        ((LogAction.sinceClear actions).filter (·.level.rank ≤ minLevel.rank))
        (actions.foldl LogAction.apply ⟨minLevel, {}⟩).log.events ∧
      if preferences.recordErrorHistory then
        AreLast Limits.maxErrorHistory calls.1 calls.2.history
      else calls.2.history = [] := by
  refine ⟨?_, ?_⟩
  · simp only [LogAction.foldl_apply_eq, EventLog.ofEvents]
    exact areLast_keepRecent Limits.logBufferSize _
  · obtain ⟨hremembers, hpreferences⟩ :=
      (ParserState.remembers_ofText text lexical preferences).callAll modes
    have hhistory := hremembers.history_eq
    have hsame : (ParserState.ofText text lexical preferences).preferences = preferences := rfl
    rw [hpreferences, hsame, List.nil_append] at hhistory
    rw [hhistory]
    split
    · exact areLast_keepRecent _ _
    · rfl

end JavaSyntax
