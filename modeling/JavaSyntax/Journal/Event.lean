import JavaSyntax.Diagnostics.Code
import JavaSyntax.Settings.Basic
import JavaSyntax.Text.Span

/-!
# Log events

What the front end notes down about its work: a level, a code, a message, perhaps
a place, and a context of named values. Long messages are cut.
-/

namespace JavaSyntax

/-- How much an event matters, most first. -/
inductive LogLevel where
  | error | warning | info | debug
deriving DecidableEq, Repr

namespace LogLevel

/-- The place of a level in the order of importance. -/
def rank : LogLevel → Nat
  | error => 0
  | warning => 1
  | info => 2
  | debug => 3

def text : LogLevel → String
  | error => "ERROR"
  | warning => "WARN"
  | info => "INFO"
  | debug => "DEBUG"

/-- The name of a level in settings. -/
def name : LogLevel → String
  | error => "Error"
  | warning => "Warning"
  | info => "Info"
  | debug => "Debug"

end LogLevel

/-- A text of at most `length` characters; a longer one ends in three dots. -/
def truncate (length : Nat) (cs : List Char) : List Char :=
  if (cs.drop length).isEmpty then cs else cs.take length ++ ['.', '.', '.']

/-- One thing that was noted down. The context is sorted by key. -/
structure LogEvent where
  /-- Seconds since the epoch. -/
  time : Nat
  level : LogLevel
  code : String
  message : String
  span : Option Span
  context : List (String × String)
deriving DecidableEq, Repr

namespace LogEvent

/-- An event without a place and without context. -/
def make (level : LogLevel) (code : String) (message : String) : LogEvent where
  time := 0
  level := level
  code := code
  message := String.ofList (truncate Limits.maxLogMessageLength message.toList)
  span := none
  context := []

def error (code : Code) (message : String) : LogEvent := .make .error code.text message

/-- An info event that reports completed work. -/
def success (code : Code) (message : String) : LogEvent := .make .info code.text message

def warning (message : String) : LogEvent := .make .warning "W000" message

def info (message : String) : LogEvent := .make .info "I000" message

def debug (message : String) : LogEvent := .make .debug "D000" message

def withSpan (e : LogEvent) (span : Span) : LogEvent := { e with span := some span }

/-- Puts a value into a context sorted by key, in place of an earlier value. -/
def insertContext (key value : String) : List (String × String) → List (String × String)
  | [] => [(key, value)]
  | (k, v) :: rest =>
    if key < k then (key, value) :: (k, v) :: rest
    else if key = k then (key, value) :: rest
    else (k, v) :: insertContext key value rest

def withContext (e : LogEvent) (key value : String) : LogEvent :=
  { e with context := insertContext key value e.context }

def isError (e : LogEvent) : Bool := e.level == .error

def isWarning (e : LogEvent) : Bool := e.level == .warning

def isInfo (e : LogEvent) : Bool := e.level == .info

def isDebug (e : LogEvent) : Bool := e.level == .debug

/-- The name of the category of the event's code. -/
def category (e : LogEvent) : String := Code.categoryOf e.code

end LogEvent

end JavaSyntax
