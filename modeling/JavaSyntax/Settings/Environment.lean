import JavaSyntax.Settings.Preferences

/-!
# Preferences from the environment

A user sets preferences by variables whose names start with `JFRONT_`. A variable that
is not set, or whose value makes no sense, leaves its preference as it is.
-/

namespace JavaSyntax

/-- The values of the variables that are set. -/
abbrev Environment := String → Option String

namespace Environment

/-- The value of a variable that says yes or no. -/
def flag (e : Environment) (variableName : String) (otherwise : Bool) : Bool :=
  match e variableName with
  | some "true" => true
  | some "false" => false
  | _ => otherwise

def lexicalPreferences (e : Environment) : LexicalPreferences where
  collectDetailedMetrics := e.flag "JFRONT_LEXICAL_DETAILED_METRICS" true
  countAffiliations := e.flag "JFRONT_LEXICAL_COUNT_AFFILIATIONS" true
  trackLengths := e.flag "JFRONT_LEXICAL_TRACK_LENGTHS" false
  includePositions := e.flag "JFRONT_LEXICAL_INCLUDE_POSITIONS" true

def syntaxPreferences (e : Environment) : SyntaxPreferences where
  logParenClassification := e.flag "JFRONT_SYNTAX_LOG_PAREN_CLASSIFICATION" false
  recordErrorHistory := e.flag "JFRONT_SYNTAX_RECORD_ERROR_HISTORY" true
  logParseSummary := e.flag "JFRONT_SYNTAX_LOG_PARSE_SUMMARY" true

def loggingPreferences (e : Environment) : LoggingPreferences where
  useStructuredLogging := e.flag "JFRONT_LOGGING_USE_STRUCTURED" false
  enableConsoleLogging := e.flag "JFRONT_LOGGING_ENABLE_CONSOLE" false
  minLogLevel := ((e "JFRONT_LOGGING_MIN_LEVEL").bind LogLevel.ofText?).getD .info
  includeFileContext := e.flag "JFRONT_LOGGING_INCLUDE_FILE_CONTEXT" true

/-- All preferences that the environment sets. -/
def preferences (e : Environment) : Preferences :=
  ⟨e.lexicalPreferences, e.syntaxPreferences, e.loggingPreferences⟩

/-- An environment without variables leaves all preferences as they are. -/
theorem preferences_of_unset : preferences (fun _ => none) = {} := rfl

end Environment

end JavaSyntax
