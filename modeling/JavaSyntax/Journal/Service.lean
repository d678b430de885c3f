import JavaSyntax.Journal.Event
import JavaSyntax.Journal.Recent

/-!
# Keeping events

A service keeps the events that matter enough in a log in memory, which holds the most
recent ones and answers questions about them.
-/

namespace JavaSyntax

/-- The events that are kept, oldest first. -/
structure EventLog where
  events : List LogEvent := []
deriving DecidableEq, Repr

namespace EventLog

/-- Keeps one more event. A full log loses its oldest one. -/
def add (log : EventLog) (e : LogEvent) : EventLog :=
  ⟨pushDroppingExcess Limits.logBufferSize log.events e⟩

/-- What a log keeps of events that come one after another. -/
def ofEvents (events : List LogEvent) : EventLog :=
  ⟨keepRecent Limits.logBufferSize events⟩

@[simp] theorem ofEvents_nil : ofEvents [] = {} := by rw [ofEvents, keepRecent_nil]

/-- A log that has taken some events takes one more. -/
theorem add_ofEvents (events : List LogEvent) (e : LogEvent) :
    (ofEvents events).add e = ofEvents (events ++ [e]) := by
  have hroom : 0 < Limits.logBufferSize := by decide
  rw [add, ofEvents, ofEvents, pushDroppingExcess_keepRecent hroom]

/-- It is the log that has taken them one by one. -/
theorem foldl_add_eq_ofEvents (events : List LogEvent) :
    events.foldl add {} = ofEvents events := by
  have h (done : List LogEvent) : events.foldl add (ofEvents done) = ofEvents (done ++ events) := by
    induction events generalizing done with
    | nil => rw [List.foldl_nil, List.append_nil]
    | cons e rest ih => rw [List.foldl_cons, add_ofEvents, ih, ← List.append_cons]
  exact h []

def size (log : EventLog) : Nat := log.events.length

def oldest? (log : EventLog) : Option LogEvent := log.events.head?

def errors (log : EventLog) : List LogEvent := log.events.filter LogEvent.isError

/-- The events whose codes are of a category. -/
def ofCategory (log : EventLog) (category : String) : List LogEvent :=
  log.events.filter (·.category == category)

/-- Whether an error with this code is kept. -/
def hasError (log : EventLog) (code : String) : Bool :=
  log.events.any fun e => e.isError && e.code == code

/-- Whether a success with this code is kept. -/
def hasSuccess (log : EventLog) (code : String) : Bool :=
  log.events.any fun e => e.isInfo && e.code == code

end EventLog

/-- A log that takes only what matters enough. -/
structure LogService where
  /-- The level that matters least among those that are kept. -/
  minLevel : LogLevel
  log : EventLog := {}
deriving DecidableEq, Repr

namespace LogService

/-- Whether events of a level are kept. -/
def keeps (s : LogService) (level : LogLevel) : Bool := level.rank ≤ s.minLevel.rank

/-- Keeps an event if it matters enough. -/
def note (s : LogService) (e : LogEvent) : LogService :=
  if s.keeps e.level then { s with log := s.log.add e } else s

/-- Forgets all events. -/
def clear (s : LogService) : LogService := { s with log := {} }

end LogService

end JavaSyntax
