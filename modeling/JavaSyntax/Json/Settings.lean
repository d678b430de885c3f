import JavaSyntax.Json.Basic
import JavaSyntax.Settings.Preferences

/-!
# Preferences as JSON

Preferences are written as objects, and read back from objects that have all their
fields, in any order and perhaps among others. An array of the fields' values in
order is read as well.
-/

namespace JavaSyntax

namespace Json

/-- The values of named fields, in the order of the names. -/
def fields? (keys : List String) : Json → Option (List Json)
  | object fields => keys.mapM fun key => fields.lookup key
  | array items => if items.length = keys.length then some items else none
  | _ => none

def bool? : Json → Option Bool
  | bool b => some b
  | _ => none

/-- The values of named fields that all say yes or no. -/
def flags? (keys : List String) (j : Json) : Option (List Bool) := do (← j.fields? keys).mapM bool?

/-- The name of a case without parts, which may be the key of nothing. -/
def caseName? : Json → Option String
  | string name => some name
  | object [(name, null)] => some name
  | _ => none

end Json

namespace LogLevel

/-- The level of a name in settings. -/
def ofName? (name : String) : Option LogLevel :=
  [error, warning, info, debug].find? (·.name == name)

end LogLevel

namespace LexicalPreferences

def keys : List String :=
  ["collect_detailed_metrics", "count_affiliations", "track_length_statistics",
    "include_position_in_errors"]

def toJson (p : LexicalPreferences) : Json :=
  .object (keys.zip [.bool p.collectDetailedMetrics, .bool p.countAffiliations,
    .bool p.trackLengths, .bool p.includePositions])

def ofJson? (j : Json) : Option LexicalPreferences := do
  let [detailed, affiliations, lengths, positions] ← j.flags? keys | none
  return ⟨detailed, affiliations, lengths, positions⟩

end LexicalPreferences

namespace SyntaxPreferences

def keys : List String :=
  ["log_paren_classification", "record_error_history", "log_parse_summary"]

def toJson (p : SyntaxPreferences) : Json :=
  .object (keys.zip [.bool p.logParenClassification, .bool p.recordErrorHistory,
    .bool p.logParseSummary])

def ofJson? (j : Json) : Option SyntaxPreferences := do
  let [paren, history, summary] ← j.flags? keys | none
  return ⟨paren, history, summary⟩

end SyntaxPreferences

namespace LoggingPreferences

def keys : List String :=
  ["use_structured_logging", "enable_console_logging", "min_log_level", "include_file_context"]

def toJson (p : LoggingPreferences) : Json :=
  .object (keys.zip [.bool p.useStructuredLogging, .bool p.enableConsoleLogging,
    .string p.minLogLevel.name, .bool p.includeFileContext])

def ofJson? (j : Json) : Option LoggingPreferences := do
  let [structured, console, level, context] ← j.fields? keys | none
  return ⟨← structured.bool?, ← console.bool?, ← LogLevel.ofName? (← level.caseName?),
    ← context.bool?⟩

end LoggingPreferences

namespace Preferences

def keys : List String := ["lexical", "syntax", "logging"]

def toJson (p : Preferences) : Json :=
  .object (keys.zip [p.lexical.toJson, p.grammar.toJson, p.logging.toJson])

def ofJson? (j : Json) : Option Preferences := do
  let [lexical, grammar, logging] ← j.fields? keys | none
  return ⟨← LexicalPreferences.ofJson? lexical, ← SyntaxPreferences.ofJson? grammar,
    ← LoggingPreferences.ofJson? logging⟩

/-- What is written is read back. -/
theorem ofJson?_toJson (p : Preferences) : ofJson? p.toJson = some p := by
  obtain ⟨lexical, grammar, ⟨structured, console, level, context⟩⟩ := p
  cases level <;> rfl

end Preferences

end JavaSyntax
