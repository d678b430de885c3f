import JavaSyntax.Lexer.Basic

/-!
# Splitting a whole text into tokens

Calls the lexer until it delivers the end of the text or refuses to go on.
-/

namespace JavaSyntax

/-- What a run of the lexer came to: the tokens it delivered, the error that stopped
it if it did not reach the end, the lexer afterwards, and what was noted down. -/
structure LexRun where
  tokens : List Token
  failure : Option LexError
  lexer : Lexer
  events : List LogEvent

namespace Lexer

/-- Reads on to the end. The tokens before and their events are given last first. -/
def runFrom (tokens : List Token) (events : List LogEvent) (l : Lexer) : LexRun :=
  let outcome := l.lex
  let events := outcome.events.reverse ++ events
  match h : outcome.result with
  | .error e => ⟨tokens.reverse, some e, outcome.lexer, events.reverse⟩
  | .ok token =>
    if hend : token.isEnd then ⟨(token :: tokens).reverse, none, outcome.lexer, events.reverse⟩
    else
      have : outcome.lexer.rest.length < l.rest.length := length_rest_lex_lt h (by simpa using hend)
      runFrom (token :: tokens) events outcome.lexer
termination_by l.rest.length

/-- Reads all tokens that are left. -/
def run (l : Lexer) : LexRun := runFrom [] [] l

end Lexer

namespace LexRun

/-- The tokens, if the run reached the end. -/
def toExcept (r : LexRun) : Except LexError (List Token) :=
  match r.failure with
  | some e => .error e
  | none => .ok r.tokens

/-- The event that notes a completed run. -/
def successEvent (r : LexRun) : LogEvent :=
  let m := r.lexer.metrics
  ((((LogEvent.success .tokenized "Tokenization completed").withContext
    "tokens" (toString m.totalTokens)).withContext
    "keywords" (toString m.keywordTokens)).withContext
    "identifiers" (toString m.identifierTokens)).withContext
    "comments" (toString m.commentCount)

/-- Everything that is noted down about a run whose completion counts as an event. -/
def loggedEvents (r : LexRun) : List LogEvent :=
  match r.failure with
  | some _ => r.events
  | none => r.events ++ [r.successEvent]

end LexRun

/-- Splits a text into tokens. -/
def tokenize (text : String) (preferences : LexicalPreferences := {}) : LexRun :=
  (Lexer.ofText text preferences).run

end JavaSyntax
