import JavaSyntax.Grammar.Declarations

/-!
# Compilation units

A source file as a whole: its package, its imports, and its types or its module.
-/

namespace JavaSyntax.Grammar

open JavaSyntax.Parser

/-! ### Packages and imports -/

/-- Reads the declaration of a package, or goes back if there is none. -/
def package? (g : Grammar) : Parser (Option (Node .packageDeclaration)) := do
  let start ← position
  let annotations ← g.annotations
  if ← eatKeyword .package then
    let name ← qualifiedName
    let _ ← expect .semicolon
    return some (← node start (.packageDeclaration (.ofList annotations) name))
  else
    restore start
    return none

/-- Reads one more part of an imported name, given last first, or the star at its
end. -/
def importedPart (names : List String) : Parser (Step (List String) (List String × Bool)) := do
  if ← eat .dot then
    if ← eat .star then return .done (names.reverse, true)
    return .again ((← expectIdentifier) :: names)
  else return .done (names.reverse, false)

/-- Reads an import. -/
def importDeclaration : Parser (Node .importDeclaration) := do
  let start ← position
  let _ ← expectKeyword .import
  let isStatic ← eatKeyword .static
  let first ← expectIdentifier
  let (name, onDemand) ← loop importedPart [first]
  let _ ← expect .semicolon
  node start (.importDeclaration isStatic name onDemand)

/-- Reads imports, and semicolons between them. -/
def imports : Parser (List (Node .importDeclaration)) :=
  loop (fun imports => do
    if ← eat .semicolon then return .again imports
    if ← checkKeyword .import then return .again ((← importDeclaration) :: imports)
    return .done imports.reverse) []

/-! ### Modules -/

/-- Reads the modifiers of a `requires` directive. -/
def requiresModifier? : Parser (Option RequiresModifier) := do
  if ← checkWord "transitive" then
    if (← peekKind 1) == .identifier then
      let _ ← advance
      return some .transitive
  if ← eatKeyword .static then return some .static
  return none

/-- Reads the modules that a package is opened or exported to. -/
def targetModules : Parser (List (List String)) := do
  if ← eatWord "to" then separatedBy .comma qualifiedName else return []

/-- Reads a service and what provides it. -/
def providesFrom (g : Grammar) : Parser (Tree .directive) := do
  let service ← g.type
  let _ ← expectWord "with"
  let implementations ← separatedBy .comma g.type
  return .provides service (.ofList implementations)

/-- Reads what a directive is. -/
def directiveTree (g : Grammar) : Parser (Tree .directive) := do
  if ← eatWord "requires" then
    let modifiers ← many requiresModifier?
    return .requires modifiers (← qualifiedName)
  if ← eatWord "exports" then
    let package ← qualifiedName
    return .exports package (← targetModules)
  if ← eatWord "opens" then
    let package ← qualifiedName
    return .opens package (← targetModules)
  if ← eatWord "uses" then return .uses (← g.type)
  if ← eatWord "provides" then return ← g.providesFrom
  unexpected "module directive"

def directive (g : Grammar) : Parser (Node .directive) := do
  let start ← position
  let tree ← g.directiveTree
  let _ ← expect .semicolon
  node start tree

/-- Whether a module comes next, after any annotations. -/
def atModule (g : Grammar) : Parser Bool := do
  let start ← position
  let _ ← g.annotations
  let found ← if ← checkWord "open" then peekIsWord 1 "module"
    else if ← checkWord "module" then pure ((← peekKind 1) == .identifier)
    else pure false
  restore start
  return found

/-- Reads a module. -/
def moduleBody (g : Grammar) : Parser (Node .moduleDeclaration) := do
  let start ← position
  let annotations ← g.annotations
  let isOpen ← eatWord "open"
  let _ ← expectWord "module"
  let name ← qualifiedName
  let _ ← expect .leftBrace
  let directives ← manyUntil .rightBrace g.directive
  let _ ← expect .rightBrace
  node start (.moduleDeclaration (.ofList annotations) isOpen name (.ofList directives))

def moduleDeclaration (g : Grammar) : Parser (Node .moduleDeclaration) :=
  guarded "module" g.moduleBody

/-! ### The whole unit -/

/-- Reads the declaration of a type with its modifiers. -/
def topLevelType (g : Grammar) : Parser (Node .typeDeclaration) := do
  let start ← position
  let modifiers ← g.modifiers
  if ← atTypeDeclaration then g.typeDeclaration start modifiers
  else unexpected "type declaration"

/-- Reads types up to the end of the text, and semicolons between them. -/
def topLevelTypes (g : Grammar) : Parser (List (Node .typeDeclaration)) :=
  loop (fun types => do
    if ← check .endOfInput then return .done types.reverse
    if ← eat .semicolon then return .again types
    return .again ((← g.topLevelType) :: types)) []

/-- Reads a compilation unit. -/
def compilationUnit (g : Grammar) : Parser (Node .compilationUnit) := do
  let start ← position
  let package ← g.package?
  let imports ← imports
  let tree : Tree .compilationUnit ←
    if ← g.atModule then
      let module ← g.moduleDeclaration
      pure (.compilationUnit (.ofOption package) (.ofList imports) .nil (.present module))
    else
      let types ← g.topLevelTypes
      pure (.compilationUnit (.ofOption package) (.ofList imports) (.ofList types) .absent)
  node start tree

end JavaSyntax.Grammar
