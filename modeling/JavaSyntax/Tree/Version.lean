import JavaSyntax.Tree.View

/-!
# The release that a tree needs

The first release of Java that has the construct at a node. A node looks only into
those of its parts that belong to the construct itself, so an old statement around
a new expression counts as old.
-/

namespace JavaSyntax

/-- The release that brought the way a literal is written. -/
def LiteralText.minVersion (l : LiteralText) : JavaVersion :=
  let chars := l.text.toList.map Char.toLower
  let hasUnderscore := chars.contains '_'
  match l.kind with
  | .textBlock => .v15
  | .int | .long => if hasUnderscore || ['0', 'b'].isPrefixOf chars then .v7 else .v1
  | .float | .double =>
    if hasUnderscore then .v7 else if ['0', 'x'].isPrefixOf chars then .v5 else .v1
  | _ => .v1

namespace Tree

/-- The release that a list of type parameters or type arguments needs. -/
def genericVersion {f : Form} (parameters : Tree (.list f)) : JavaVersion :=
  if parameters.isEmpty then .v1 else .v5

/-- The release that the modifier of a keyword needs. -/
def keywordVersion (keyword : Keyword) : JavaVersion := if keyword = .default then .v8 else .v1

/-- The first release of Java that has the construct. -/
def minVersion : {f : Form} → Tree f → JavaVersion
  | _, .cons head tail => max (minVersion head) (minVersion tail)
  | _, .present t => minVersion t
  | _, .located t _ _ => minVersion t
  -- Expressions
  | _, .literal l => l.minVersion
  | _, .methodCall _ typeArguments _ _ => genericVersion typeArguments
  | _, .objectCreation _ typeArguments _ _ _ => genericVersion typeArguments
  | _, .arrayCreation _ _ _ annotations _ =>
    if annotations.toList.any (!·.isEmpty) then .v8 else .v1
  | _, .instanceOf _ target => minVersion target
  | _, .testPattern pattern => max (minVersion pattern) .v16
  | _, .lambda parameters _ => max (minVersion parameters) .v8
  | _, .explicitParameters parameters =>
    if parameters.toList.any (·.inner.hasVarType) then .v11 else .v8
  | _, .methodReference .. => .v8
  | _, .switchExpression .. => .v14
  -- Switches
  | _, .rules cases => max (minVersion cases) .v14
  | _, .groups cases => minVersion cases
  | _, .switchRule label _ => max (minVersion label) .v14
  | _, .switchGroup labels statements => max (minVersion labels) (minVersion statements)
  | _, .switchLabel labels guard =>
    let own : JavaVersion :=
      if guard.isPresent then .v21 else if 1 < labels.toList.length then .v14 else .v1
    max (minVersion labels) own
  | _, .casePattern pattern => max (minVersion pattern) .v21
  | _, .caseNull => .v21
  -- Statements
  | _, .block statements => minVersion statements
  | _, .localVariable declaration => minVersion declaration
  | _, .localVariables _ type _ => minVersion type
  | _, .localClass declaration => minVersion declaration
  | _, .forEachStatement _ type _ _ _ => max (minVersion type) .v5
  | _, .switchStatement _ body => minVersion body
  | _, .tryStatement resources _ catches _ => max (minVersion resources) (minVersion catches)
  | _, .assertStatement .. => .v1_4
  | _, .yieldStatement _ => .v14
  | _, .catchClause _ types _ _ => if 1 < types.toList.length then .v7 else .v1
  | _, .resourceDeclaration _ type _ _ => max (minVersion type) .v7
  | _, .resourceExpression _ => .v9
  -- Types and patterns
  | _, .primitiveType annotations _ => if annotations.isEmpty then .v1 else .v8
  | _, .classType segments => minVersion segments
  | _, .classTypeSegment annotations _ typeArguments =>
    if !annotations.isEmpty then .v8
    else match typeArguments.toOption with
      | none => .v1
      | some arguments => if arguments.isEmpty then .v7 else max (minVersion typeArguments) .v5
  | _, .arrayType element _ => minVersion element
  | _, .wildcardType .. => .v5
  | _, .intersectionType _ => .v5
  | _, .unionType _ => .v7
  | _, .varType => .v10
  | _, .typeParameter .. => .v5
  | _, .typePattern _ _ name => if name = "_" then .v22 else .v16
  | _, .recordPattern _ components => max (minVersion components) .v21
  | _, .unnamedPattern => .v22
  -- Modifiers and parameters
  | _, .annotationUse .. => .v5
  | _, .keywordModifier keyword => keywordVersion keyword
  | _, .sealedModifier => .v17
  | _, .nonSealedModifier => .v17
  | _, .annotatedModifier _ => .v5
  | _, .parameter _ paramType varargs _ _ receiver =>
    let own : JavaVersion := if receiver then .v8 else if varargs then .v5 else .v1
    max (minVersion paramType) own
  -- Declarations
  | _, .classDeclaration modifiers _ typeParameters _ _ permitted _ =>
    max (if permitted.isEmpty then genericVersion typeParameters else .v17) (minVersion modifiers)
  | _, .interfaceDeclaration modifiers _ typeParameters _ permitted _ =>
    max (if permitted.isEmpty then genericVersion typeParameters else .v17) (minVersion modifiers)
  | _, .annotationTypeDeclaration modifiers _ _ => max .v5 (minVersion modifiers)
  | _, .enumDeclaration modifiers _ _ _ _ => max .v5 (minVersion modifiers)
  | _, .recordDeclaration modifiers _ _ _ _ _ => max .v16 (minVersion modifiers)
  | _, .enumConstant .. => .v5
  | _, .fieldDeclaration modifiers _ _ => minVersion modifiers
  | _, .methodDeclaration modifiers typeParameters _ _ parameters _ _ _ _ =>
    max (genericVersion typeParameters) (max (minVersion modifiers) (minVersion parameters))
  | _, .constructorDeclaration modifiers _ _ parameters _ _ =>
    max (minVersion modifiers) (minVersion parameters)
  | _, .compactConstructor .. => .v16
  | _, .memberType declaration => minVersion declaration
  -- Modules and compilation units
  | _, .requires .. => .v9
  | _, .exports .. => .v9
  | _, .opens .. => .v9
  | _, .uses _ => .v9
  | _, .provides .. => .v9
  | _, .moduleDeclaration .. => .v9
  | _, .importDeclaration isStatic _ _ => if isStatic then .v5 else .v1
  | _, .compilationUnit _ imports types module =>
    max (max (minVersion imports) (minVersion types)) (minVersion module)
  | _, _ => .v1

end Tree

end JavaSyntax
