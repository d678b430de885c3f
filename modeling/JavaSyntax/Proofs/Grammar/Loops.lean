import JavaSyntax.Proofs.Grammar.Advance
import JavaSyntax.Proofs.Syntax.Rounds

/-!
# Productions and loops of the grammar

The productions that read a node, and the loops with the steps that they repeat, are listed here
for a record of guarded productions. Every listed production passes a token, except for the few
that go on with a node which another one has begun, and so does every step that goes round.
-/

set_option synthInstance.maxSize 4096

namespace JavaSyntax

open JavaSyntax.Parser Work

namespace Grammar

variable {n : Nat}

/-! ### Productions that read a node -/

/-- The productions that read a node other than a compilation unit, for which it may be nothing,
and the declaration of a package, which may be missing. Those with a position go on from there:
what they read is the end of a node, or a node of which something was read. -/
inductive ReadsNode (g : Grammar) : {f : Form} → Parser (Node f) → Prop
  | annotationUse : g.ReadsNode g.annotationUse
  | annotationBody : g.ReadsNode g.annotationBody
  | type : g.ReadsNode g.type
  | creationType : g.ReadsNode g.creationType
  | typeArgument : g.ReadsNode g.typeArgument
  | classTypeFrom (start : Nat) (annotations : List (Node .annotationUse)) :
      g.ReadsNode (g.classTypeFrom start annotations)
  | classType : g.ReadsNode g.classType
  | elementType (allowVar : Bool) : g.ReadsNode (g.elementType allowVar)
  | typeBody : g.ReadsNode g.typeBody
  | resultType : g.ReadsNode g.resultType
  | castType : g.ReadsNode g.castType
  | typeParameter : g.ReadsNode g.typeParameter
  | pattern : g.ReadsNode g.pattern
  | patternBody : g.ReadsNode g.patternBody
  | variableInitializer : g.ReadsNode g.variableInitializer
  | arrayInitializer : g.ReadsNode g.arrayInitializer
  | arrayInitializerBody : g.ReadsNode g.arrayInitializerBody
  | variableDeclarator : g.ReadsNode g.variableDeclarator
  | parameter (isFirst : Bool) : g.ReadsNode (g.parameter isFirst)
  | caseLabel : g.ReadsNode g.caseLabel
  | switchLabel : g.ReadsNode g.switchLabel
  | labelWithColon : g.ReadsNode g.labelWithColon
  | ruleFrom (start : Nat) (label : Node .switchLabel) : g.ReadsNode (g.ruleFrom start label)
  | rule : g.ReadsNode g.rule
  | group : g.ReadsNode g.group
  | expression : g.ReadsNode g.expression
  | expressionBody : g.ReadsNode g.expressionBody
  | conditional : g.ReadsNode g.conditional
  | conditionalBody : g.ReadsNode g.conditionalBody
  | binary (levels least : Nat) : g.ReadsNode (g.binary levels least)
  | anyBinary : g.ReadsNode g.anyBinary
  | unary : g.ReadsNode g.unary
  | unaryBody : g.ReadsNode g.unaryBody
  | castFrom (start : Nat) : g.ReadsNode (g.castFrom start)
  | negativeLiteral (start : Nat) : g.ReadsNode (negativeLiteral start)
  | parenExpression (start : Nat) : g.ReadsNode (g.parenExpression start)
  | postfixExpression (start : Nat) : g.ReadsNode (g.postfixExpression start)
  | primary : g.ReadsNode g.primary
  | namePrimary (start : Nat) : g.ReadsNode (g.namePrimary start)
  | parenthesized (start : Nat) : g.ReadsNode (g.parenthesized start)
  | lambdaFrom (start : Nat) (parameters : Tree .lambdaParameters) :
      g.ReadsNode (g.lambdaFrom start parameters)
  | methodReference (start : Nat) (target : Tree .referenceTarget) :
      g.ReadsNode (g.methodReference start target)
  | typePrimaryFrom (start : Nat) (type : Node .type) :
      g.ReadsNode (g.typePrimaryFrom start type)
  | dotSelector (start : Nat) (target : Node .expression) :
      g.ReadsNode (g.dotSelector start target)
  | creation (start : Nat) (outer : Option (Node .expression)) :
      g.ReadsNode (g.creation start outer)
  | arrayCreation (start : Nat) (element : Node .type) :
      g.ReadsNode (g.arrayCreation start element)
  | objectCreation (start : Nat) (outer : Option (Node .expression))
      (typeArguments : List (Node .type)) (type : Node .type) :
      g.ReadsNode (g.objectCreation start outer typeArguments type)
  | block : g.ReadsNode g.block
  | blockBody : g.ReadsNode g.blockBody
  | statement : g.ReadsNode g.statement
  | statementBody : g.ReadsNode g.statementBody
  | condition : g.ReadsNode g.condition
  | expressionEnd : g.ReadsNode g.expressionEnd
  | resource : g.ReadsNode g.resource
  | catchClause : g.ReadsNode g.catchClause
  | typeDeclaration (start : Nat) (modifiers : List (Node .modifier)) :
      g.ReadsNode (g.typeDeclaration start modifiers)
  | typeDeclarationBody (start : Nat) (modifiers : List (Node .modifier)) :
      g.ReadsNode (g.typeDeclarationBody start modifiers)
  | member (className : Option String) : g.ReadsNode (g.member className)
  | enumConstant : g.ReadsNode g.enumConstant
  | importDeclaration : g.ReadsNode importDeclaration
  | directive : g.ReadsNode g.directive
  | moduleBody : g.ReadsNode g.moduleBody
  | moduleDeclaration : g.ReadsNode g.moduleDeclaration
  | topLevelType : g.ReadsNode g.topLevelType

/-- The productions that go on with a node which was begun, where what follows may be nothing or
was seen before. -/
inductive Continues (g : Grammar) : {f : Form} → Parser (Node f) → Prop
  | selectors (start : Nat) (target : Node .expression) :
      g.Continues (g.selectors start target)
  | groupFrom (start : Nat) (label : Node .switchLabel) : g.Continues (g.groupFrom start label)
  | keywordPrimary (start : Nat) (keyword : Keyword) :
      g.Continues (g.keywordPrimary start keyword)
  | classLiteral (start : Nat) (target : Node .expression) :
      g.Continues (classLiteral start target)

section

variable {g : Grammar} [g.Productive] [g.Striding]

instance (start : Nat) (target : Node .expression) : Onward n (g.selectors start target) := by
  unfold selectors
  infer_instance

instance (start : Nat) (keyword : Keyword) : Onward n (g.keywordPrimary start keyword) := by
  unfold keywordPrimary
  split <;> infer_instance

omit [g.Striding] in
/-- What goes on with a node does not go back. -/
theorem Continues.onward {f : Form} {p : Parser (Node f)} (h : g.Continues p) : Onward n p := by
  cases h <;> infer_instance

/-- A production that reads a node passes a token. -/
theorem ReadsNode.passes [g.Nourishing] {f : Form} {p : Parser (Node f)} (h : g.ReadsNode p) :
    Passes n p := by
  cases h <;> infer_instance

end

/-! ### Loops -/

/-- Reads one more name of a class type. -/
def segmentStep (g : Grammar) (found : Token × List (Tree .classTypeSegment)) :
    Parser (Step (Token × List (Tree .classTypeSegment))
      (Token × List (Tree .classTypeSegment))) := do
  if ← atSegment then
    let _ ← advance
    let annotations ← g.annotations
    let token ← peek 0
    let segment ← g.segment annotations
    return .again (token, segment :: found.2)
  else return .done (found.1, found.2.reverse)

/-- Reads one more constant of an enum, and goes on after a comma. -/
def constantStep (g : Grammar) (constants : List (Node .enumConstant)) :
    Parser (Step (List (Node .enumConstant)) (List (Node .enumConstant))) := do
  if endsConstants (← currentKind) then return .done constants.reverse
  let constants := (← g.enumConstant) :: constants
  if ← eat .comma then return .again constants else return .done constants.reverse

/-- Reads one more import or semicolon. -/
def importStep (imports : List (Node .importDeclaration)) :
    Parser (Step (List (Node .importDeclaration)) (List (Node .importDeclaration))) := do
  if ← eat .semicolon then return .again imports
  if ← checkKeyword .import then return .again ((← importDeclaration) :: imports)
  return .done imports.reverse

/-- Reads one more declaration of a type or semicolon. -/
def topLevelStep (g : Grammar) (types : List (Node .typeDeclaration)) :
    Parser (Step (List (Node .typeDeclaration)) (List (Node .typeDeclaration))) := do
  if ← check .endOfInput then return .done types.reverse
  if ← eat .semicolon then return .again types
  return .again ((← g.topLevelType) :: types)

/-- The conditions and the items of the loops that read items as long as a condition holds. -/
inductive Whiles (g : Grammar) : {α : Type} → Parser Bool → Parser α → Prop
  | names : g.Whiles (checkPair .dot .identifier) (do
      let _ ← advance
      expectIdentifier)
  | brackets : g.Whiles (checkPair .leftBracket .rightBracket) (do
      let _ ← advance
      advance)
  | annotations : g.Whiles atAnnotation g.annotationUse
  | intersection : g.Whiles (eat .amp) g.type
  | labels : g.Whiles atSwitchLabel g.labelWithColon
  | groupStatements : g.Whiles atGroupStatement g.statement
  | rules : g.Whiles (return !(← check .rightBrace)) g.rule
  | groups : g.Whiles (return !(← check .rightBrace)) g.group
  | statements : g.Whiles (return !(← check .rightBrace)) g.statement
  | resources : g.Whiles moreResources g.resource
  | catches : g.Whiles (checkKeyword .catch) g.catchClause
  | parameters : g.Whiles (eat .comma) (g.parameter false)
  | members (className : Option String) :
      g.Whiles (return !(← check .rightBrace)) (g.member className)
  | directives : g.Whiles (return !(← check .rightBrace)) g.directive

/-- Reads a modifier as a node, if one comes next. -/
def modifierNode? (g : Grammar) : Parser (Option (Node .modifier)) := do
  let start ← position
  match ← g.modifier? with
  | some tree => return some (← node start tree)
  | none => return none

/-- The items of the loops that read items until there is none. -/
inductive Searches (g : Grammar) : {α : Type} → Parser (Option α) → Prop
  | modifiers : g.Searches g.modifierNode?
  | dimensions : g.Searches g.dimension?
  | requiresModifiers : g.Searches requiresModifier?

/-- The loops of the grammar and of its lookaheads, with the step that each repeats and what it
starts from. A lookahead passes a bracketed group from its bracket on, so from outside of any
token. -/
inductive Loops (g : Grammar) : {α β : Type} → Parser β → (α → Parser (Step α β)) → α → Prop
  | while {α : Type} {condition : Parser Bool} {item : Parser α}
      (h : g.Whiles condition item) :
      g.Loops (manyWhile condition item) (whileStep condition item) []
  | search {α : Type} {item : Parser (Option α)} (h : g.Searches item) :
      g.Loops (many item) (searchStep item) []
  | separated {α : Type} {kind : TokenKind} {item : Parser α} (hkind : kind ≠ .endOfInput)
      (hitem : Production .free item) :
      g.Loops (separatedBy kind item) (separatedStep kind item) []
  | trailing {α : Type} {kind : TokenKind} {item : Parser α} (hitem : Production .free item) :
      g.Loops (trailingCommas kind item) (trailingStep kind item) []
  | segments (first : Token) (segment : Tree .classTypeSegment) :
      g.Loops (loop g.segmentStep (first, [segment])) g.segmentStep (first, [segment])
  | newDimensions : g.Loops (loop g.newDimension {}) g.newDimension {}
  | selectors (start : Nat) (target : Node .expression) :
      g.Loops (g.selectors start target) (g.selector start) target
  | operators (levels least start : Nat) (first : Node .expression) :
      g.Loops (loop (g.binaryStep (g.binary levels) least start) first)
        (g.binaryStep (g.binary levels) least start) first
  | arms : g.Loops (loop g.elseStep []) g.elseStep []
  | constants : g.Loops g.enumConstants g.constantStep []
  | importedParts (first : String) : g.Loops (loop importedPart [first]) importedPart [first]
  | imports : g.Loops imports importStep []
  | topLevelTypes : g.Loops g.topLevelTypes g.topLevelStep []
  | ahead {α β : Type} {w : Lookahead β} {step : α → Lookahead (Step α β)} {a : α}
      (h : Lookahead.Loops w step a) (σ : LookaheadState) :
      g.Loops (w σ) (Lookahead.stepped step) (a, σ)
  | balanced (σ : LookaheadState) (hσ : σ.pending = 0) :
      g.Loops (Lookahead.skipBalanced σ) Lookahead.balancedStep (0, σ)

variable {g : Grammar} {α β : Type} {p : Parser β} {step : α → Parser (Step α β)} {a : α}

/-- A loop repeats its step. -/
theorem Loops.eq (h : g.Loops p step a) : p = loop step a := by
  cases h with
  | ahead h σ => rw [h.eq, Lookahead.loop_eq]
  | balanced σ hσ => exact Lookahead.skipBalanced_eq hσ
  | _ => rfl

/-- As long as its condition holds, an item of such a loop passes a token. -/
theorem Whiles.strides [g.Productive] [g.Striding] [g.Nourishing] {condition : Parser Bool}
    {item : Parser α} (h : g.Whiles condition item) (items : List α) :
    Strides n Step.IsAgain (whileStep condition item items) := by
  unfold whileStep
  cases h <;> infer_instance

/-- Where another item is found, it passes a token. -/
theorem Searches.strides [g.Productive] [g.Striding] {item : Parser (Option α)}
    (h : g.Searches item) : Strides n (·.isSome = true) item := by
  cases h with
  | modifiers =>
    exact .fromPosition fun start => .found inferInstance (fun _ => inferInstance) inferInstance
  | dimensions => infer_instance
  | requiresModifiers => infer_instance

/-- A step of a loop that goes round passes a token. -/
theorem Loops.strides [g.Productive] [g.Striding] [g.Nourishing] (h : g.Loops p step a) (n : Nat)
    (b : α) : Strides n Step.IsAgain (step b) := by
  cases h with
  | «while» h => exact h.strides b
  | search h =>
    have := h.strides (n := n)
    exact inferInstanceAs (Strides n Step.IsAgain (searchStep _ b))
  | separated hkind hitem =>
    have := TokenKind.Proper.mk hkind
    infer_instance
  | operators levels least start => exact strides_binaryStep (looking_binary levels) least start b
  | segments => unfold segmentStep; infer_instance
  | constants => unfold constantStep; infer_instance
  | imports => unfold importStep; infer_instance
  | topLevelTypes => unfold topLevelStep; infer_instance
  | ahead h σ =>
    have hpaces := h.paces
    infer_instance
  | _ => infer_instance

end Grammar

end JavaSyntax
