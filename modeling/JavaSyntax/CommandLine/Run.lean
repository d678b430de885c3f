import JavaSyntax.CommandLine.Command
import JavaSyntax.FrontEnd.Basic
import JavaSyntax.Json.Tree
import JavaSyntax.Number.FloatText
import JavaSyntax.Text.Quoted
import JavaSyntax.Token.Basic

/-!
# Running commands

What a command prints, and whether it succeeds. A failure in a text is shown under the
line where it was met, with what the registry advises.

Tokens are listed line by line: what stands before each token, then the token with its kind, its
text and the value of a literal. Every line starts with a byte offset.
-/

namespace JavaSyntax

/-! ### Listings of tokens -/

namespace LiteralValue

/-- How listings write doubles. -/
def floatFormat : FloatFormat := ⟨-4, 15, "", .up, "NaN", "inf"⟩

/-- What a listing says about the value of a literal. -/
def listing : LiteralValue → String
  | .integer value radix => s!"Integer \x7b value: {value}, radix: {radix.name} \x7d"
  | .floating value => s!"Floating({floatFormat.write value})"
  | .char value => s!"Char({Quoted.char value})"
  | .string value => s!"Str({Quoted.string value})"
  | .bool value => s!"Bool({value})"

end LiteralValue

namespace Listing

/-- A text with blanks before it, up to a width. -/
def padLeft (width : Nat) (s : String) : String :=
  String.ofList (List.replicate (width - s.length) ' ') ++ s

/-- A text with blanks after it, up to a width. -/
def padRight (width : Nat) (s : String) : String :=
  s ++ String.ofList (List.replicate (width - s.length) ' ')

/-- One line: an offset, a kind and a text. -/
def line (offset : Nat) (kind text : String) : String :=
  padLeft 6 (toString offset) ++ "  " ++ padRight 14 kind ++ " " ++ Quoted.string text

def affiliation (a : Affiliation) : String := line a.span.start.offset a.style.name a.text

/-- The lines of a token and of what stands before it. -/
def tokenLines (t : Token) : List String :=
  let value := t.value.elim "" fun v => "  = " ++ v.listing
  t.affiliations.map affiliation ++ [line t.offset t.kind.describe t.source ++ value]

/-- The lines of some tokens. -/
def tokens (ts : List Token) : List String := ts.flatMap tokenLines

end Listing

/-! ### Results -/

/-- What a command came to. -/
structure CommandResult where
  succeeded : Bool
  output : String
  complaint : String
deriving DecidableEq, Repr

namespace CommandResult

/-- Some lines, and whether that is a success. -/
def lines (ls : List String) (succeeded : Bool := true) : CommandResult :=
  ⟨succeeded, String.join (ls.map (· ++ "\n")), ""⟩

/-- A failure with a complaint. -/
def failure (complaint : String) : CommandResult := ⟨false, "", complaint ++ "\n"⟩

/-- The exit status of the command. -/
def status (r : CommandResult) : Nat := if r.succeeded then 0 else 1

end CommandResult

/-- The complaint about a file that cannot be read. -/
def SourceError.complaint (e : SourceError) : String := s!"error[{e.code.text}]: {e.message}"

namespace FrontEndError

/-- The complaint about a failure in a text that came from a path. -/
def complaint (e : FrontEndError) (path text : String) : String :=
  let header := s!"error[{e.code.text}]: {e.message}"
  match e.offset? with
  | none => header
  | some offset =>
    let map := SourceMap.ofText text
    let position := map.positionAt offset
    s!"{header}\n --> {path}:{position.line}:{position.column}\n" ++
      map.formatErrorAt position e.message ++ s!"\nhelp: {e.action}"

end FrontEndError

/-- What a command says about the result of work on a text. -/
def FrontEnd.report {α : Type} (work : FrontEnd α) (path text : String)
    (onSuccess : α → CommandResult) : CommandResult :=
  match work.evaluate with
  | .ok a => onSuccess a
  | .error e => .failure (e.complaint path text)

namespace FileAction

/-- Does something with the text of a file. -/
def run (path text : String) : FileAction → CommandResult
  | .tokens asJson => (FrontEnd.tokens text).report path text fun tokens =>
    .lines (if asJson then [(Json.ofList Token.toJson tokens).pretty] else Listing.tokens tokens)
  | .parse mode asJson => (FrontEnd.parse text mode).report path text fun tree =>
    .lines [if asJson then (Json.tagged mode.name tree.toJson).pretty else tree.canonical]
  | .check mode => (FrontEnd.checkRoundTrip text mode).report path text fun r =>
    .lines [s!"{path}: {r.tokenCount} tokens, lossless: {r.lossless}, idempotent: {r.idempotent}"]
      r.passed

end FileAction

namespace Command

/-- The path that complaints about a text give which came from no file. -/
def noPath : String := "<input>"

/-- Runs a command, given the source text at each path. -/
def run (source : String → Except SourceError String) : Command → CommandResult
  | .onFile path action =>
    match source path with
    | .ok text => action.run path text
    | .error e => .failure e.complaint
  | .classify text => (FrontEnd.classify text).report noPath text fun kind => .lines [kind.text]

/-- The path whose text a command needs. -/
def path? : Command → Option String
  | .onFile path _ => some path
  | .classify _ => none

end Command

end JavaSyntax
