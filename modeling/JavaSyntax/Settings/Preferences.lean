import JavaSyntax.Journal.Event
import JavaSyntax.Settings.Basic
import JavaSyntax.Text.LetterCase

/-!
# All preferences

What is logged and where to, and the preferences of all stages together. A user may ask for less
than warnings only in vain.
-/

namespace JavaSyntax

namespace LogLevel

/-- The level that a user names, in capital or small letters or by its rank. -/
def ofText? (text : String) : Option LogLevel :=
  match LetterCase.lower text with
  | "error" | "0" => some error
  | "warning" | "warn" | "1" => some warning
  | "info" | "2" => some info
  | "debug" | "3" => some debug
  | _ => none

/-- Of two levels the one that keeps more. -/
def laxer (a b : LogLevel) : LogLevel := if a.rank < b.rank then b else a

/-- The level of a rank that no preference can go below. -/
def floorOfRank : Nat → LogLevel
  | 0 => error
  | 1 => warning
  | _ => info

end LogLevel

/-- What is logged and where to. -/
structure LoggingPreferences where
  /-- Write events as JSON. -/
  useStructuredLogging : Bool := false
  /-- Write events to the console. -/
  enableConsoleLogging : Bool := false
  minLogLevel : LogLevel := .info
  /-- Give the file in every event. -/
  includeFileContext : Bool := true
deriving DecidableEq, Repr

namespace LoggingPreferences

/-- The level down to which events are kept. -/
def effectiveLevel (p : LoggingPreferences) : LogLevel :=
  p.minLogLevel.laxer (.floorOfRank Limits.securityMinLogLevel)

/-- A text about the limits of the log and the preferences. -/
def summary (p : LoggingPreferences) : String :=
  s!"Logging Configuration:\n- Log buffer size: {Limits.logBufferSize}\n" ++
    s!"- Max message length: {Limits.maxLogMessageLength}\n" ++
    s!"- Security min level: {Limits.securityMinLogLevel}\n" ++
    s!"- Min log level: {p.minLogLevel.name}\n" ++
    s!"- Structured logging: {p.useStructuredLogging}\n" ++
    s!"- Console logging: {p.enableConsoleLogging}\n" ++
    s!"- Include file context: {p.includeFileContext}"

end LoggingPreferences

/-- All preferences. -/
structure Preferences where
  lexical : LexicalPreferences := {}
  grammar : SyntaxPreferences := {}
  logging : LoggingPreferences := {}
deriving DecidableEq, Repr

end JavaSyntax
