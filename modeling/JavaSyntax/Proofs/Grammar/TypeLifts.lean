import JavaSyntax.Grammar.Levels
import JavaSyntax.Proofs.Syntax.LiftAhead

/-!
# Types and what they need are lifted

Given two records of productions of which the first one lifts to the second one, every builder of
the grammar does: one instance for each of them, found from its own definition and the instances
before it. This file goes from names and literals to types, patterns, variables and arguments.
-/

set_option synthInstance.maxSize 16384

namespace JavaSyntax

open JavaSyntax.Parser

/-- The guarded productions of a record lift to those of another one. -/
class Grammar.Lifting (g h : Grammar) : Prop where
  annotationUse : ∀ n, Lifts n g.annotationUse h.annotationUse
  elementArray : ∀ n, Lifts n g.elementArray h.elementArray
  type : ∀ n, Lifts n g.type h.type
  creationType : ∀ n, Lifts n g.creationType h.creationType
  expression : ∀ n, Lifts n g.expression h.expression
  conditional : ∀ n, Lifts n g.conditional h.conditional
  unary : ∀ n, Lifts n g.unary h.unary
  pattern : ∀ n, Lifts n g.pattern h.pattern
  arrayInitializer : ∀ n, Lifts n g.arrayInitializer h.arrayInitializer
  switchBody : ∀ n, Lifts n g.switchBody h.switchBody
  block : ∀ n, Lifts n g.block h.block
  statement : ∀ n, Lifts n g.statement h.statement
  typeDeclaration : ∀ n start modifiers,
    Lifts n (g.typeDeclaration start modifiers) (h.typeDeclaration start modifiers)
  classBody : ∀ n className, Lifts n (g.classBody className) (h.classBody className)

namespace Grammar

variable {n : Nat} {g h : Grammar} [hgh : g.Lifting h]

instance : Lifts n g.annotationUse h.annotationUse := hgh.annotationUse n

instance : Lifts n g.elementArray h.elementArray := hgh.elementArray n

instance : Lifts n g.type h.type := hgh.type n

instance : Lifts n g.creationType h.creationType := hgh.creationType n

instance : Lifts n g.expression h.expression := hgh.expression n

instance : Lifts n g.conditional h.conditional := hgh.conditional n

instance : Lifts n g.unary h.unary := hgh.unary n

instance : Lifts n g.pattern h.pattern := hgh.pattern n

instance : Lifts n g.arrayInitializer h.arrayInitializer := hgh.arrayInitializer n

instance : Lifts n g.switchBody h.switchBody := hgh.switchBody n

instance : Lifts n g.block h.block := hgh.block n

instance : Lifts n g.statement h.statement := hgh.statement n

instance (start : Nat) (modifiers : List (Node .modifier)) :
    Lifts n (g.typeDeclaration start modifiers) (h.typeDeclaration start modifiers) :=
  hgh.typeDeclaration n start modifiers

instance (className : Option String) :
    Lifts n (g.classBody className) (h.classBody className) := hgh.classBody n className

/-! ### Names, literals and brackets -/

instance (first second : TokenKind) :
    Lifts n (Parser.checkPair first second) (Parser.checkPair first second) := by
  unfold Parser.checkPair
  infer_instance

instance : Lifts n qualifiedName qualifiedName := by unfold qualifiedName; infer_instance

instance : Lifts n identifierList identifierList := by unfold identifierList; infer_instance

instance (negated : Bool) : Lifts n (literal negated) (literal negated) := by
  unfold literal
  refine Lifts.seq inferInstance fun kind => ?_
  split <;> infer_instance

instance : Lifts n atNonSealed atNonSealed := by unfold atNonSealed; infer_instance

instance : Lifts n emptyDimensions emptyDimensions := by unfold emptyDimensions; infer_instance

instance : Lifts n expectClosingAngle expectClosingAngle := by
  unfold expectClosingAngle
  infer_instance

/-! ### Modifiers -/

instance : Lifts n Parser.atAnnotation Parser.atAnnotation := by
  unfold Parser.atAnnotation
  infer_instance

instance : Lifts n g.annotations h.annotations := by unfold annotations; infer_instance

instance : Lifts n g.elementValue h.elementValue := by
  unfold elementValue
  refine Lifts.seq inferInstance fun kind => ?_
  split <;> infer_instance

instance : Lifts n g.elementArrayBody h.elementArrayBody := by
  unfold elementArrayBody
  infer_instance

instance : Lifts n g.elementValuePair h.elementValuePair := by
  unfold elementValuePair
  infer_instance

instance : Lifts n g.annotationArguments h.annotationArguments := by
  unfold annotationArguments
  infer_instance

instance : Lifts n g.optionalArguments h.optionalArguments := by
  unfold optionalArguments
  infer_instance

instance : Lifts n g.annotationBody h.annotationBody := by unfold annotationBody; infer_instance

instance : Lifts n sealing? sealing? := by unfold sealing?; infer_instance

instance (keyword : Keyword) : Lifts n (isModifierHere keyword) (isModifierHere keyword) := by
  unfold isModifierHere
  split <;> infer_instance

instance : Lifts n g.modifier? h.modifier? := by
  unfold modifier?
  refine Lifts.seq inferInstance fun kind => ?_
  split <;> infer_instance

instance : Lifts n g.modifiers h.modifiers := by
  have hitem (k : Nat) : Lifts k (position >>= fun start => g.modifier? >>= fun
      | some tree => node start tree >>= fun a => pure (some a)
      | none => pure none) (position >>= fun start => h.modifier? >>= fun
      | some tree => node start tree >>= fun a => pure (some a)
      | none => pure none) := by
    refine Lifts.marking fun start => Lifts.seq inferInstance fun found => ?_
    cases found <;> infer_instance
  unfold modifiers
  infer_instance

/-! ### Types -/

instance : Lifts n Grammar.atSegment Grammar.atSegment := by
  unfold Grammar.atSegment
  infer_instance

instance : Lifts n g.wildcardBound? h.wildcardBound? := by unfold wildcardBound?; infer_instance

instance : Lifts n g.typeArgument h.typeArgument := by unfold typeArgument; infer_instance

instance : Lifts n g.typeArguments h.typeArguments := by unfold typeArguments; infer_instance

instance : Lifts n g.typeArguments? h.typeArguments? := by unfold typeArguments?; infer_instance

instance : Lifts n g.typeArgumentsOrNone h.typeArgumentsOrNone := by
  unfold typeArgumentsOrNone
  infer_instance

instance (a : List (Node .annotationUse)) : Lifts n (g.segment a) (h.segment a) := by
  unfold segment
  infer_instance

instance (start : Nat) (a : List (Node .annotationUse)) :
    Lifts n (g.classTypeFrom start a) (h.classTypeFrom start a) := by
  unfold classTypeFrom
  infer_instance

instance : Lifts n g.classType h.classType := by unfold classType; infer_instance

instance : Lifts n g.classTypeList h.classTypeList := by unfold classTypeList; infer_instance

instance : Lifts n primitive? primitive? := by
  unfold primitive?
  refine Lifts.seq inferInstance fun kind => ?_
  split <;> infer_instance

instance : Lifts n atVar atVar := by unfold atVar; infer_instance

instance (allowVar : Bool) : Lifts n (g.elementType allowVar) (h.elementType allowVar) := by
  unfold elementType
  refine Lifts.marking fun start => Lifts.seq inferInstance fun r =>
    Lifts.seq inferInstance fun found => ?_
  split <;> infer_instance

instance : Lifts n atDimension atDimension := by unfold atDimension; infer_instance

instance : Lifts n g.dimension? h.dimension? := by unfold dimension?; infer_instance

instance : Lifts n g.typeBody h.typeBody := by unfold typeBody; infer_instance

instance : Lifts n g.resultType h.resultType := by unfold resultType; infer_instance

instance : Lifts n g.catchTypes h.catchTypes := by unfold catchTypes; infer_instance

instance : Lifts n g.castType h.castType := by unfold castType; infer_instance

instance : Lifts n g.typeBounds h.typeBounds := by unfold typeBounds; infer_instance

instance : Lifts n g.typeParameter h.typeParameter := by unfold typeParameter; infer_instance

instance : Lifts n g.typeParameters h.typeParameters := by unfold typeParameters; infer_instance

/-! ### Patterns -/

instance : Lifts n atUnnamed atUnnamed := by unfold atUnnamed; infer_instance

instance : Lifts n g.patternComponents h.patternComponents := by
  unfold patternComponents
  infer_instance

instance : Lifts n g.patternBody h.patternBody := by unfold patternBody; infer_instance

/-! ### Variables -/

instance : Lifts n g.arguments h.arguments := by unfold arguments; infer_instance

instance : Lifts n g.variableInitializer h.variableInitializer := by
  unfold variableInitializer
  infer_instance

instance : Lifts n g.arrayInitializerBody h.arrayInitializerBody := by
  unfold arrayInitializerBody
  infer_instance

instance : Lifts n g.variableDeclarator h.variableDeclarator := by
  unfold variableDeclarator
  infer_instance

instance : Lifts n g.variableDeclarators h.variableDeclarators := by
  unfold variableDeclarators
  infer_instance

instance (a : List (Node .modifier)) : Lifts n (g.localVariable a) (h.localVariable a) := by
  unfold localVariable
  infer_instance

instance : Lifts n atReceiver atReceiver := by unfold atReceiver; infer_instance

instance : Lifts n receiverName receiverName := by unfold receiverName; infer_instance

instance (isFirst : Bool) : Lifts n (g.parameter isFirst) (h.parameter isFirst) := by
  unfold parameter
  infer_instance

instance : Lifts n g.parameterList h.parameterList := by unfold parameterList; infer_instance

instance : Lifts n g.formalParameters h.formalParameters := by
  unfold formalParameters
  infer_instance

end Grammar

end JavaSyntax
