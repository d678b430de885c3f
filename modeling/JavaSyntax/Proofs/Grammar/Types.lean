import JavaSyntax.Proofs.Syntax.Walk

/-!
# Types and what they need are productions

The grammar's builders refer to each other through a record of guarded productions. Given
a record of productions, every builder is a production: one instance for each of them,
found from its own definition and the instances before it. This file goes from names
and literals to types, patterns, variables and arguments.
-/

set_option synthInstance.maxSize 4096

namespace JavaSyntax

open JavaSyntax.Parser

/-- The guarded productions of a record are productions. -/
class Grammar.Productive (g : Grammar) : Prop where
  annotationUse : Production .looking g.annotationUse
  elementArray : Production .looking g.elementArray
  type : Production .looking g.type
  creationType : Production .looking g.creationType
  expression : Production .looking g.expression
  conditional : Production .looking g.conditional
  unary : Production .looking g.unary
  pattern : Production .looking g.pattern
  arrayInitializer : Production .looking g.arrayInitializer
  switchBody : Production .looking g.switchBody
  block : Production .looking g.block
  statement : Production .looking g.statement
  typeDeclaration :
    ∀ start modifiers, Production (.started start) (g.typeDeclaration start modifiers)
  classBody : ∀ className, Production .looking (g.classBody className)

namespace Grammar

variable {m : Footing} {g : Grammar} [hg : g.Productive]

instance : Production m g.annotationUse := hg.annotationUse.onAny

instance : Production m g.elementArray := hg.elementArray.onAny

instance : Production m g.type := hg.type.onAny

instance : Production m g.creationType := hg.creationType.onAny

instance : Production m g.expression := hg.expression.onAny

instance : Production m g.conditional := hg.conditional.onAny

instance : Production m g.unary := hg.unary.onAny

instance : Production m g.pattern := hg.pattern.onAny

instance : Production m g.arrayInitializer := hg.arrayInitializer.onAny

instance : Production m g.switchBody := hg.switchBody.onAny

instance : Production m g.block := hg.block.onAny

instance : Production m g.statement := hg.statement.onAny

instance (n : Nat) (modifiers : List (Node .modifier)) :
    Production (.started n) (g.typeDeclaration n modifiers) := hg.typeDeclaration n modifiers

instance (className : Option String) : Production m (g.classBody className) :=
  (hg.classBody className).onAny

/-! ### Names, literals and brackets -/

instance (first second : TokenKind) :
    Production m (checkPair first second) := .onAny (by unfold checkPair; infer_instance)

instance : Production m qualifiedName := .onAny (by unfold qualifiedName; infer_instance)

instance : Production m identifierList := .onAny (by unfold identifierList; infer_instance)

instance (negated : Bool) : Production m (literal negated) := by
  apply Production.onAny
  unfold literal
  refine .look inferInstance fun kind => ?_
  split <;> infer_instance

instance : Production m emptyDimensions := .onAny (by unfold emptyDimensions; infer_instance)

instance : Production m expectClosingAngle := .onAny (by unfold expectClosingAngle; infer_instance)

instance : Production m atNonSealed := .onAny (by unfold atNonSealed; infer_instance)

/-! ### Modifiers -/

instance : Production m atAnnotation := .onAny (by unfold atAnnotation; infer_instance)

instance : Production m g.annotations := .onAny (by unfold annotations; infer_instance)

instance : Production m g.elementValue := by
  apply Production.onAny
  unfold elementValue
  refine .look inferInstance fun kind => ?_
  split <;> infer_instance

instance : Production m g.elementArrayBody := .onAny (by unfold elementArrayBody; infer_instance)

instance : Production m g.elementValuePair := .onAny (by unfold elementValuePair; infer_instance)

instance :
    Production m g.annotationArguments := .onAny (by unfold annotationArguments; infer_instance)

instance : Production m g.optionalArguments := .onAny (by unfold optionalArguments; infer_instance)

instance : Production m g.annotationBody := .onAny (by unfold annotationBody; infer_instance)

instance : Production m sealing? := .onAny (by unfold sealing?; infer_instance)

instance [m.Passive] (keyword : Keyword) : Production m (isModifierHere keyword) := by
  unfold isModifierHere
  split <;> infer_instance

instance : Production m g.modifier? := by
  apply Production.onAny
  unfold modifier?
  refine .look inferInstance fun kind => ?_
  split <;> infer_instance

instance : Production m g.modifiers := by
  unfold modifiers
  have hitem : Production .looking (position >>= fun start => g.modifier? >>= fun found =>
      match found with
      | some tree => node start tree >>= fun a => pure (some a)
      | none => pure none) := by
    refine .start inferInstance fun start found _ => ?_
    split <;> infer_instance
  infer_instance

/-! ### Types -/

instance : Production m atSegment := .onAny (by unfold atSegment; infer_instance)

instance : Production m g.wildcardBound? := .onAny (by unfold wildcardBound?; infer_instance)

instance : Production m g.typeArgument := .onAny (by unfold typeArgument; infer_instance)

instance : Production m g.typeArguments := .onAny (by unfold typeArguments; infer_instance)

instance : Production m g.typeArguments? := .onAny (by unfold typeArguments?; infer_instance)

instance :
    Production m g.typeArgumentsOrNone := .onAny (by unfold typeArgumentsOrNone; infer_instance)

instance (annotations : List (Node .annotationUse)) :
    Production m (g.segment annotations) := .onAny (by unfold segment; infer_instance)

instance (n : Nat) (annotations : List (Node .annotationUse)) :
    Production (.started n) (g.classTypeFrom n annotations) :=
  by unfold classTypeFrom; infer_instance

instance : Production m g.classType := .onAny (by unfold classType; infer_instance)

instance : Production m g.classTypeList := .onAny (by unfold classTypeList; infer_instance)

instance : Production m primitive? := by
  apply Production.onAny
  unfold primitive?
  refine .look inferInstance fun kind => ?_
  split <;> infer_instance

instance : Production m atVar := .onAny (by unfold atVar; infer_instance)

instance (allowVar : Bool) : Production m (g.elementType allowVar) := by
  unfold elementType
  refine .start inferInstance fun start annotations _ => .bind nofun inferInstance fun found => ?_
  split <;> infer_instance

instance : Production m atDimension := .onAny (by unfold atDimension; infer_instance)

instance : Production m g.dimension? := .onAny (by unfold dimension?; infer_instance)

instance : Production m g.typeBody := .onAny (by unfold typeBody; infer_instance)

instance : Production m g.resultType := .onAny (by unfold resultType; infer_instance)

instance : Production m g.catchTypes := .onAny (by unfold catchTypes; infer_instance)

instance : Production m g.castType := .onAny (by unfold castType; infer_instance)

instance : Production m g.typeBounds := .onAny (by unfold typeBounds; infer_instance)

instance : Production m g.typeParameter := .onAny (by unfold typeParameter; infer_instance)

instance : Production m g.typeParameters := .onAny (by unfold typeParameters; infer_instance)

/-! ### Patterns -/

instance : Production m atUnnamed := .onAny (by unfold atUnnamed; infer_instance)

instance : Production m g.patternComponents := .onAny (by unfold patternComponents; infer_instance)

instance : Production m g.patternBody := .onAny (by unfold patternBody; infer_instance)

/-! ### Variables -/

instance : Production m g.arguments := .onAny (by unfold arguments; infer_instance)

instance :
    Production m g.variableInitializer := .onAny (by unfold variableInitializer; infer_instance)

instance :
    Production m g.arrayInitializerBody := .onAny (by unfold arrayInitializerBody; infer_instance)

instance :
    Production m g.variableDeclarator := .onAny (by unfold variableDeclarator; infer_instance)

instance :
    Production m g.variableDeclarators := .onAny (by unfold variableDeclarators; infer_instance)

instance (modifiers : List (Node .modifier)) :
    Production m (g.localVariable modifiers) := .onAny (by unfold localVariable; infer_instance)

instance : Production m atReceiver := .onAny (by unfold atReceiver; infer_instance)

instance : Production m receiverName := .onAny (by unfold receiverName; infer_instance)

instance (isFirst : Bool) :
    Production m (g.parameter isFirst) := .onAny (by unfold parameter; infer_instance)

instance : Production m g.parameterList := .onAny (by unfold parameterList; infer_instance)

instance : Production m g.formalParameters := .onAny (by unfold formalParameters; infer_instance)

end Grammar

end JavaSyntax
