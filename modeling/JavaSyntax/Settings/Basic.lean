/-!
# Limits and preferences

The limits are the bounds that the front end is built with. They keep every stage finite in
practice: sizes of files and tokens, depth of nesting, reach of lookahead, and lengths of
histories. They are those of the profile for development, `config/development.toml`.

The preferences are what a user may choose: which statistics the lexer keeps, what the parser
notes down, and how much is logged. None of them changes a token or a tree.
-/

namespace JavaSyntax

/-! ### Limits -/

namespace Limits

/-- The largest source file that is read, in bytes. -/
def maxFileSize : Nat := 16777216

/-- From this size on a source file counts as large. -/
def largeFileThreshold : Nat := 1048576

/-- The longest string literal or text block, in bytes with its quotes. -/
def maxStringSize : Nat := 1048576

/-- The longest identifier, in characters. -/
def maxIdentifierLength : Nat := 1024

/-- The longest comment, in bytes with its delimiters. -/
def maxCommentLength : Nat := 1048576

/-- The most tokens that one text may have, its end not counted. -/
def maxTokenCount : Nat := 2000000

/-- How deep productions may be nested. -/
def maxParseDepth : Nat := 64

/-- How many errors a parser remembers. -/
def maxErrorHistory : Nat := 32

/-- How many contexts a parser keeps on its stack. -/
def maxContextStackDepth : Nat := 64

/-- How many tokens a decision may look ahead. -/
def maxLookaheadTokens : Nat := 256

/-- How many events the log in memory holds. -/
def logBufferSize : Nat := 1024

/-- The longest message of an event, in characters. -/
def maxLogMessageLength : Nat := 4096

/-- The level of events, counted from errors, that no setting can switch off. -/
def securityMinLogLevel : Nat := 1

end Limits

/-! ### Preferences -/

/-- What the lexer counts and how it reports errors. -/
structure LexicalPreferences where
  /-- Count keywords, identifiers, operators and literals separately. -/
  collectDetailedMetrics : Bool := true
  /-- Count white space and comments. -/
  countAffiliations : Bool := true
  /-- Remember the lengths of the longest string and comment. -/
  trackLengths : Bool := false
  /-- Give the place of an error in its log event. -/
  includePositions : Bool := true
deriving DecidableEq, Repr

/-- What the parser notes down. -/
structure SyntaxPreferences where
  /-- Log every decision about a parenthesis. -/
  logParenClassification : Bool := false
  /-- Remember the errors of failed entry points. -/
  recordErrorHistory : Bool := true
  /-- Log a summary of every completed parse. -/
  logParseSummary : Bool := true
deriving DecidableEq, Repr

end JavaSyntax
