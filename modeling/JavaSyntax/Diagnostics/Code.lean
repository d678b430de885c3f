/-!
# Diagnostic codes

Every failure and every completed stage has a code. The registry below is the
only place that says how severe a code is, whether work may go on after it, and
what a reader should do about it. A text that is no registered code still has a
meaning: the defaults of `severityOf` and its companions.
-/

namespace JavaSyntax

/-- How bad a diagnostic is, worst first. -/
inductive Severity where
  | critical | high | medium | low
deriving DecidableEq, Repr

namespace Severity

def name : Severity → String
  | critical => "Critical"
  | high => "High"
  | medium => "Medium"
  | low => "Low"

end Severity

/-- The part of the front end that a code belongs to. -/
inductive CodeCategory where
  | system | fileProcessing | lexical | grammar
deriving DecidableEq, Repr

namespace CodeCategory

def name : CodeCategory → String
  | system => "System"
  | fileProcessing => "FileProcessing"
  | lexical => "Lexical"
  | grammar => "Syntax"

end CodeCategory

/-- The codes that the front end itself raises. -/
inductive Code where
  | internalError
  | initializationFailure
  | fileNotFound
  | invalidExtension
  | fileTooLarge
  | permissionDenied
  | invalidEncoding
  | readFailure
  | invalidCharacter
  | unterminatedString
  | invalidNumber
  | identifierTooLong
  | stringTooLarge
  | commentTooLong
  | tooManyTokens
  | unterminatedChar
  | unterminatedTextBlock
  | unterminatedComment
  | invalidEscape
  | invalidCharLiteral
  | noDecodedValue
  | invalidTextBlockOpening
  | unexpectedEndOfInput
  | grammarViolation
  | unexpectedToken
  | contextualKeyword
  | unexpectedEof
  | internalParserError
  | maxRecursionDepth
  | loggingInitialized
  | fileRead
  | tokenized
  | treeBuilt
  | roundTripVerified
deriving DecidableEq, Repr

/-- What the registry holds about a code. -/
structure CodeInfo where
  code : String
  category : CodeCategory
  severity : Severity
  recoverable : Bool
  requiresHalt : Bool
  description : String
  action : String
deriving DecidableEq, Repr

namespace Code

/-- The registry entry of a code. -/
def info : Code → CodeInfo
  | internalError => ⟨"ERR001", .system, .critical, false, true,
    "Internal front end error",
    "Report the input that triggered this error"⟩
  | initializationFailure => ⟨"ERR002", .system, .critical, false, true,
    "Initialization failure",
    "Check configuration and environment variables"⟩
  | fileNotFound => ⟨"E005", .fileProcessing, .high, false, true,
    "Source file not found",
    "Check the file path"⟩
  | invalidExtension => ⟨"E006", .fileProcessing, .low, true, false,
    "File does not have a .java extension",
    "Rename the file or pass a Java source file"⟩
  | fileTooLarge => ⟨"E007", .fileProcessing, .high, false, true,
    "File exceeds maximum size limit",
    "Split the file or raise max_file_size in the build profile"⟩
  | permissionDenied => ⟨"E009", .fileProcessing, .high, false, true,
    "Permission denied reading source file",
    "Check file permissions"⟩
  | invalidEncoding => ⟨"E010", .fileProcessing, .high, false, true,
    "Source file is not valid UTF-8",
    "Re-encode the file as UTF-8"⟩
  | readFailure => ⟨"E011", .fileProcessing, .high, false, true,
    "I/O error while reading source file",
    "Check the file system and retry"⟩
  | invalidCharacter => ⟨"E020", .lexical, .high, false, true,
    "Invalid character in source",
    "Remove the character or place it inside a literal or comment"⟩
  | unterminatedString => ⟨"E021", .lexical, .high, false, true,
    "Unterminated string literal",
    "Add the closing double quote before the end of the line"⟩
  | invalidNumber => ⟨"E022", .lexical, .high, false, true,
    "Malformed or out-of-range numeric literal",
    "Check digits, radix prefix, suffix and range"⟩
  | identifierTooLong => ⟨"E023", .lexical, .medium, false, true,
    "Identifier exceeds maximum length",
    "Use a shorter identifier"⟩
  | stringTooLarge => ⟨"E024", .lexical, .medium, false, true,
    "String literal exceeds maximum size limit",
    "Reduce string size or break into smaller parts"⟩
  | commentTooLong => ⟨"E026", .lexical, .medium, false, true,
    "Comment exceeds maximum allowed length",
    "Reduce comment length or break into multiple comments"⟩
  | tooManyTokens => ⟨"E027", .lexical, .high, false, true,
    "Input contains too many tokens",
    "Split the input or raise max_token_count in the build profile"⟩
  | unterminatedChar => ⟨"E029", .lexical, .high, false, true,
    "Unterminated character literal",
    "Add the closing single quote"⟩
  | unterminatedTextBlock => ⟨"E030", .lexical, .high, false, true,
    "Unterminated text block",
    "Close the text block with three double quotes"⟩
  | unterminatedComment => ⟨"E031", .lexical, .high, false, true,
    "Unterminated block comment",
    "Close the comment with */"⟩
  | invalidEscape => ⟨"E032", .lexical, .high, false, true,
    "Invalid escape sequence",
    "Use one of \\b \\t \\n \\f \\r \\s \\\" \\' \\\\, an octal escape or \\uXXXX"⟩
  | invalidCharLiteral => ⟨"E033", .lexical, .high, false, true,
    "Character literal must contain exactly one character",
    "Use a string literal for multiple characters"⟩
  | noDecodedValue => ⟨"E034", .lexical, .low, true, false,
    "Token carries no decoded value",
    "Only call value accessors on literal tokens"⟩
  | invalidTextBlockOpening => ⟨"E035", .lexical, .high, false, true,
    "Text block opening delimiter must be followed by a line terminator",
    "Start the text block content on the line after the opening quotes"⟩
  | unexpectedEndOfInput => ⟨"E036", .lexical, .high, false, true,
    "Input ended in the middle of a token",
    "Complete the final token"⟩
  | grammarViolation => ⟨"E043", .grammar, .high, false, true,
    "Grammar violation during parsing",
    "Fix the construct named in the message"⟩
  | unexpectedToken => ⟨"E050", .grammar, .high, false, true,
    "Unexpected token",
    "Check the token against the expected construct"⟩
  | contextualKeyword => ⟨"E051", .grammar, .medium, false, true,
    "Contextual keyword used as a type name",
    "Rename the type; permits, record, sealed, var and yield are restricted"⟩
  | unexpectedEof => ⟨"E052", .grammar, .high, false, true,
    "Unexpected end of input",
    "Complete the unfinished construct"⟩
  | internalParserError => ⟨"E086", .grammar, .critical, false, true,
    "Internal parser error",
    "Report the input that triggered this error"⟩
  | maxRecursionDepth => ⟨"E087", .grammar, .high, false, true,
    "Maximum parse depth exceeded",
    "Reduce nesting or raise max_parse_depth in the build profile"⟩
  | loggingInitialized => ⟨"I004", .system, .low, true, false,
    "Logging system initialized",
    "None"⟩
  | fileRead => ⟨"I006", .fileProcessing, .low, true, false,
    "Source file read successfully",
    "Continue to lexical analysis"⟩
  | tokenized => ⟨"I020", .lexical, .low, true, false,
    "Tokenization completed",
    "Continue to parsing"⟩
  | treeBuilt => ⟨"I040", .grammar, .low, true, false,
    "AST construction completed",
    "None"⟩
  | roundTripVerified => ⟨"I041", .grammar, .low, true, false,
    "Source round-trip verified",
    "None"⟩

/-- The spelling of a code. -/
def text (c : Code) : String := c.info.code

/-- Every code, in the order of the registry. -/
def all : List Code := [
  internalError, initializationFailure, fileNotFound, invalidExtension, fileTooLarge,
  permissionDenied, invalidEncoding, readFailure, invalidCharacter, unterminatedString,
  invalidNumber, identifierTooLong, stringTooLarge, commentTooLong, tooManyTokens,
  unterminatedChar, unterminatedTextBlock, unterminatedComment, invalidEscape, invalidCharLiteral,
  noDecodedValue, invalidTextBlockOpening, unexpectedEndOfInput, grammarViolation, unexpectedToken,
  contextualKeyword, unexpectedEof, internalParserError, maxRecursionDepth, loggingInitialized,
  fileRead, tokenized, treeBuilt, roundTripVerified]

/-- The list of all codes misses none. -/
theorem mem_all (c : Code) : c ∈ all := by cases c <;> decide

/-- The registry entry of a spelling, if it is the spelling of a code. -/
def lookup? (text : String) : Option CodeInfo :=
  (all.map info).find? (·.code == text)

/-- The severity of a spelling; an unknown one is medium. -/
def severityOf (text : String) : Severity :=
  (lookup? text).elim .medium (·.severity)

/-- Whether work may go on after a code; after an unknown one it may. -/
def isRecoverable (text : String) : Bool :=
  (lookup? text).elim true (·.recoverable)

/-- Whether a code stops all work; an unknown one does not. -/
def requiresHalt (text : String) : Bool :=
  (lookup? text).elim false (·.requiresHalt)

def descriptionOf (text : String) : String :=
  (lookup? text).elim "Unknown error" (·.description)

def actionOf (text : String) : String :=
  (lookup? text).elim "No specific action available" (·.action)

/-- The name of a spelling's category. -/
def categoryOf (text : String) : String :=
  (lookup? text).elim "Unknown" (·.category.name)

/-- The codes of completed work are spelt with a leading `I`. -/
def isSuccess (text : String) : Bool := text.startsWith "I"

end Code

end JavaSyntax
