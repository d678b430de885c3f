import JavaSyntax.Json.Basic
import JavaSyntax.Lexer.Metrics
import JavaSyntax.Token.Basic

/-!
# Tokens as JSON

The dump of positions, spans, tokens, the values of literals and lexical metrics. A
case of a type is written as its name, or as an object with the name for its only key.
-/

namespace JavaSyntax

namespace Position

def toJson (p : Position) : Json :=
  .object [("offset", .int p.offset), ("line", .int p.line), ("column", .int p.column)]

end Position

namespace Span

def toJson (s : Span) : Json := .object [("start", s.start.toJson), ("end", s.stop.toJson)]

end Span

namespace TokenKind

def toJson : TokenKind → Json
  | .keyword word => .tagged "Keyword" (.string word.name)
  | kind => .string kind.name

end TokenKind

namespace LiteralValue

def toJson : LiteralValue → Json
  | .integer value radix =>
    .tagged "Integer" (.object [("value", .int value), ("radix", .string radix.name)])
  | .floating value => .tagged "Floating" (.float value)
  | .char value => .tagged "Char" (.string value.toString)
  | .string value => .tagged "Str" (.string value)
  | .bool value => .tagged "Bool" (.bool value)

end LiteralValue

namespace Affiliation

def toJson (a : Affiliation) : Json :=
  .object [("style", .string a.style.name), ("text", .string a.text), ("span", a.span.toJson)]

end Affiliation

namespace Token

def toJson (t : Token) : Json :=
  .object [("kind", t.kind.toJson), ("span", t.span.toJson),
    ("affiliations", .ofList Affiliation.toJson t.affiliations), ("source", .string t.source),
    ("value", .ofOption LiteralValue.toJson t.value)]

end Token

namespace LexicalMetrics

def toJson (m : LexicalMetrics) : Json :=
  .object [("total_tokens", .int m.totalTokens), ("keyword_tokens", .int m.keywordTokens),
    ("identifier_tokens", .int m.identifierTokens), ("operator_tokens", .int m.operatorTokens),
    ("literal_tokens", .int m.literalTokens), ("affiliation_count", .int m.affiliationCount),
    ("comment_count", .int m.commentCount), ("max_string_length", .int m.maxStringLength),
    ("max_comment_length", .int m.maxCommentLength)]

end LexicalMetrics

end JavaSyntax
