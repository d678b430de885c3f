import JavaSyntax.Settings.Basic
import JavaSyntax.Token.Basic

/-!
# Lexical metrics

What the lexer counts while it reads, as far as the preferences ask for it.
-/

namespace JavaSyntax

/-- Counts of tokens and of what stands between them, and the greatest lengths. -/
structure LexicalMetrics where
  totalTokens : Nat := 0
  keywordTokens : Nat := 0
  identifierTokens : Nat := 0
  operatorTokens : Nat := 0
  literalTokens : Nat := 0
  affiliationCount : Nat := 0
  commentCount : Nat := 0
  maxStringLength : Nat := 0
  maxCommentLength : Nat := 0
deriving DecidableEq, Repr

namespace LexicalMetrics

/-- Counts a token in the first of the four classes that it belongs to. -/
def countClass (m : LexicalMetrics) (t : Token) : LexicalMetrics :=
  if t.isKeyword then { m with keywordTokens := m.keywordTokens + 1 }
  else if t.kind == .identifier then { m with identifierTokens := m.identifierTokens + 1 }
  else if t.isOperator then { m with operatorTokens := m.operatorTokens + 1 }
  else if t.isLiteral then { m with literalTokens := m.literalTokens + 1 }
  else m

/-- Remembers the length of a string literal or text block. -/
def trackString (m : LexicalMetrics) (t : Token) : LexicalMetrics :=
  if t.kind == .stringLiteral || t.kind == .textBlock then
    { m with maxStringLength := max m.maxStringLength t.source.utf8ByteSize }
  else m

/-- Counts a token that is not the end of the text. -/
def addToken (m : LexicalMetrics) (prefs : LexicalPreferences) (t : Token) : LexicalMetrics :=
  let m := { m with totalTokens := m.totalTokens + 1 }
  let m := if prefs.collectDetailedMetrics then m.countClass t else m
  if prefs.trackLengths then m.trackString t else m

/-- Counts a comment. -/
def addComment (m : LexicalMetrics) (prefs : LexicalPreferences) (a : Affiliation) :
    LexicalMetrics :=
  let m := { m with commentCount := m.commentCount + 1 }
  if prefs.trackLengths then
    { m with maxCommentLength := max m.maxCommentLength a.text.utf8ByteSize }
  else m

/-- Counts what stands before a token. -/
def addAffiliation (m : LexicalMetrics) (prefs : LexicalPreferences) (a : Affiliation) :
    LexicalMetrics :=
  let m :=
    if prefs.countAffiliations then { m with affiliationCount := m.affiliationCount + 1 } else m
  if a.style.isComment then m.addComment prefs a else m

end LexicalMetrics

end JavaSyntax
