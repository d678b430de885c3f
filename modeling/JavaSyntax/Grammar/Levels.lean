import JavaSyntax.Grammar.Units

/-!
# The grammar

The record of the guarded productions, built from the inside out. Each level has
the productions of the level below for what is nested inside; the innermost one
refuses everything. The guards refuse deeper nesting before the levels run out, so
the number of levels is never felt.
-/

namespace JavaSyntax

namespace Parser

/-- Refuses to go deeper. -/
def refuseDepth {α : Type} : Parser α := do
  let token ← peek 0
  throw (.tooDeep token.display token.span)

end Parser

namespace Grammar

open JavaSyntax.Parser

/-- The level below all levels. -/
def innermost : Grammar where
  annotationUse := refuseDepth
  elementArray := refuseDepth
  type := refuseDepth
  creationType := refuseDepth
  expression := refuseDepth
  conditional := refuseDepth
  unary := refuseDepth
  pattern := refuseDepth
  arrayInitializer := refuseDepth
  switchBody := refuseDepth
  block := refuseDepth
  statement := refuseDepth
  typeDeclaration := fun _ _ => refuseDepth
  classBody := fun _ => refuseDepth

/-- The level around another one. -/
def around (g : Grammar) : Grammar where
  annotationUse := guarded "annotation" g.annotationBody
  elementArray := guarded "element value" g.elementArrayBody
  type := guarded "type" g.typeBody
  creationType := guarded "type" (g.elementType false)
  expression := guarded "expression" g.expressionBody
  conditional := guarded "expression" g.conditionalBody
  unary := guarded "expression" g.unaryBody
  pattern := guarded "pattern" g.patternBody
  arrayInitializer := guarded "array initializer" g.arrayInitializerBody
  switchBody := guarded "switch" (withLambdas true g.switchCases)
  block := guarded "block" g.blockBody
  statement := guarded "statement" g.statementBody
  typeDeclaration := fun start modifiers =>
    guarded "type declaration" (g.typeDeclarationBody start modifiers)
  classBody := fun className => guarded "class body" (g.classBodyBraces className)

/-- So many levels. -/
def levels : Nat → Grammar
  | 0 => innermost
  | n + 1 => (levels n).around

end Grammar

/-- The grammar of Java. It has one level more than productions may be open. -/
def grammar : Grammar := .levels (Limits.maxParseDepth + 1)

end JavaSyntax
