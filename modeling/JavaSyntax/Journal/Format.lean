import JavaSyntax.Journal.Event
import JavaSyntax.Json.Basic

/-!
# Writing log events

An event is written in one line, over several lines with all that the registry
knows about its code, or as a JSON object in one line.
-/

namespace JavaSyntax.LogEvent

/-- Writes an event in one line, with its place if it has one. -/
def format (e : LogEvent) : String :=
  let place := e.span.elim "" fun span => " at " ++ span.start.toText
  s!"[{e.level.text}] {e.code} - {e.message}{place}"

/-- A line of details. -/
def detail (key value : String) : String := s!"\n  {key}: {value}"

/-- What the details say about an error's consequences. -/
def consequences (e : LogEvent) : String :=
  if e.isError then
    detail "Recoverable" (toString (Code.isRecoverable e.code)) ++
      detail "Requires halt" (toString (Code.requiresHalt e.code))
  else ""

/-- What the details say about a registered code. -/
def explanation (e : LogEvent) : String :=
  match Code.lookup? e.code with
  | some info =>
    detail "Description" info.description ++ detail "Recommended action" info.action
  | none => ""

/-- What the details say about the context. -/
def contextLines (e : LogEvent) : String :=
  if e.context.isEmpty then ""
  else "\n  Context:" ++ String.join (e.context.map fun (key, value) => s!"\n    {key}: {value}")

/-- Writes an event with everything that is known about it. -/
def formatDetailed (e : LogEvent) : String :=
  e.format ++ detail "Category" e.category ++ detail "Severity" (Code.severityOf e.code).name ++
    e.consequences ++ e.explanation ++ e.contextLines

/-- The fields of a span in a structured event. -/
def spanFields (span : Span) : Json :=
  .object [("end_column", .int span.stop.column), ("end_line", .int span.stop.line),
    ("end_offset", .int span.stop.offset), ("start_column", .int span.start.column),
    ("start_line", .int span.start.line), ("start_offset", .int span.start.offset)]

/-- The fields of a structured error that explain its code. -/
def errorFields (e : LogEvent) : Json :=
  .object [("description", .string (Code.descriptionOf e.code)),
    ("recommended_action", .string (Code.actionOf e.code)),
    ("recoverable", .bool (Code.isRecoverable e.code)),
    ("requires_halt", .bool (Code.requiresHalt e.code))]

/-- An event as an object whose keys are sorted. What is missing has no key. -/
def toJson (e : LogEvent) : Json :=
  let context :=
    if e.context.isEmpty then []
    else [("context", Json.object (e.context.map fun (key, value) => (key, .string value)))]
  let metadata := if e.isError then [("error_metadata", e.errorFields)] else []
  let span := e.span.toList.map fun span => ("span", spanFields span)
  .object <|
    [("category", .string e.category), ("code", .string e.code)] ++ context ++ metadata ++
      [("level", .string e.level.text), ("message", .string e.message),
        ("severity", .string (Code.severityOf e.code).name)] ++ span ++
      [("timestamp", .int e.time)]

/-- Writes an event as a line of a structured log. -/
def formatJson (e : LogEvent) : String := e.toJson.compact

end JavaSyntax.LogEvent
