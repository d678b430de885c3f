import JavaSyntax.Proofs.Tree.Regular
import JavaSyntax.Proofs.Tree.Seams

/-!
# Where the words of a tree touch

The script of every tree that keeps the rules of the language is sewn. It may stand before
anything that docks: brackets, commas, dots and the like. Where the script of a part has a word
of the tree behind it, this is one that docks, and where it has a word before it, this is a
fence, unless the part is known to start with a name or with an operator of its own.

So the words of a tree can be read again as they are printed, with one exception: a number goes
on with a dot behind it.
-/

namespace JavaSyntax

open Mark

/-! ### What trees start with -/

/-- A mark that does not go on an operator before it, or an operator that is given. -/
def Mark.SignedBy (sign : Option UnaryOperator) (m : Mark) : Prop :=
  m.IsOf TokenKind.isCalm ∨ ∃ operator ∈ sign, m = .sign operator.token

namespace Script

variable {sign : Option UnaryOperator} {ms : Script} {P : Mark → Prop}

/-- A type never starts with an operator. -/
theorem starts_of_opensType (h : Starts (IsOf TokenKind.opensType) ms) :
    Starts (SignedBy sign) ms :=
  h.mono fun _ hm => .inl (hm.mono fun _ => TokenKind.isCalm_of_opensType)

/-- A type may stand behind type arguments. -/
theorem starts_followsAngles (h : Starts (IsOf TokenKind.opensType) ms) :
    Starts (IsOf TokenKind.followsAngles) ms :=
  h.mono fun _ hm => hm.mono fun _ => TokenKind.followsAngles_of_opensType

/-- What may stand before a dot starts as its own first part, or with the dot. -/
theorem starts_qualified (hdot : P (.sign .dot)) {o : Option Script}
    (h : o.toList.Forall (Starts P)) : Starts P (Tree.qualifiedScript o) := by
  refine starts_optional fun s hs => ?_
  obtain rfl : o = some s := hs
  exact starts_all ⟨h, .inr ⟨starts_cons.mpr hdot, .inl (List.cons_ne_nil _ _)⟩⟩

/-- A gap or an opening bracket is of all kinds that include the bracket. -/
theorem isOf_of_leftBracket {p : TokenKind → Bool} (hp : p .leftBracket = true) (m : Mark)
    (hm : m.IsOf (· == .leftBracket)) : m.IsOf p :=
  hm.mono fun k hk => by rwa [eq_of_beq hk]

/-- A name starts a name, whatever word it is. -/
theorem isOf_opensName_name (text : String) : (Mark.name text).IsOf TokenKind.opensName :=
  TokenKind.opensName_classifyWord text

/-- A name may stand behind the dot of a selector. -/
theorem isOf_opensMember_name (text : String) : (Mark.name text).IsOf TokenKind.opensMember :=
  TokenKind.opensMember_of_opensName (isOf_opensName_name text)

/-- A name may stand behind type arguments. -/
theorem isOf_followsAngles_name (text : String) :
    (Mark.name text).IsOf TokenKind.followsAngles := by
  simp [Mark.name, IsOf, TokenKind.followsAngles]

/-- A name does not go on an operator before it. -/
theorem isOf_isCalm_name (text : String) : (Mark.name text).IsOf TokenKind.isCalm :=
  TokenKind.isCalm_of_opensName (isOf_opensName_name text)

end Script

/-- What the script of a form starts with, given the operator that the tree starts with. -/
def Form.Headed : (f : Form) → f.Scripted → Option UnaryOperator → Prop
  | .list f => fun ss _ => ss.Forall fun s => ∃ sign, f.Headed s sign
  | .option f => fun o sign => o.toList.Forall fun s => f.Headed s sign
  | .node f => f.Headed
  | .expression | .referenceTarget => fun ms sign => Script.Starts (SignedBy sign) ms
  | .lambdaParameters => fun ms _ => Script.Starts (IsOf TokenKind.isCalm) ms
  | .type => fun ms _ => Script.Starts (IsOf TokenKind.opensType) ms
  | .annotationUse => fun ms _ => Script.Starts (IsOf TokenKind.opensName) ms
  | .typeParameter | .classTypeSegment => fun ms _ =>
    ms ≠ [] ∧ Script.Starts (IsOf TokenKind.opensName) ms
  | .dimension => fun ms _ => Script.Starts (IsOf (· == .leftBracket)) ms
  | .annotationArguments => fun ms _ => Script.Starts (IsOf TokenKind.docks) ms
  | _ => fun _ _ => True

namespace Tree

open Script

variable {f : Form}

/-- An expression is some word at least. -/
theorem script_ne_nil (t : Tree .expression) : t.script ≠ [] := by
  cases t with
  | unary operator operand =>
    change operationScript _ _ _ ≠ []
    unfold operationScript
    split <;> exact all_ne_nil (by simp)
  | literal | simpleName => exact List.cons_ne_nil _ _
  | _ => exact all_ne_nil (by simp)

/-- Whatever a tree is printed as starts with a name, a bracket or an operator of its own. -/
theorem headed_script (t : Tree f) : f.Headed t.script t.sign? := by
  have hcalm {sign : Option UnaryOperator} {m : Mark} {ms : Script} {rest : List Script}
      (h : m.IsOf TokenKind.isCalm) : Leads (SignedBy sign) True ((m :: ms) :: rest) :=
    ⟨starts_cons.mpr (.inl h), .inl (List.cons_ne_nil _ _)⟩
  have hannotations {ss : List Script} {P : Mark → Prop}
      (h : (Form.list (.node .annotationUse)).Headed ss none)
      (hP : ∀ m, IsOf TokenKind.opensName m → P m) : Starts P (prefixes ss) :=
    (starts_prefixes (h.imp fun _ hs => hs.elim fun _ => id)).mono hP
  induction t with
  | nil | absent => trivial
  | cons head tail ihhead ihtail => exact (List.forall_cons ..).mpr ⟨⟨_, ihhead⟩, ihtail⟩
  | present tree ih | located tree _ _ ih | expressionTarget _ ih => exact ih
  -- Expressions
  | literal l =>
    obtain ⟨kind, value, text⟩ := l
    refine starts_cons.mpr (.inl ?_)
    cases kind with
    | boolean => exact isOf_isCalm_name text
    | _ => rfl
  | simpleName name => exact starts_cons.mpr (.inl (isOf_isCalm_name name))
  | this _ ih | super _ ih | objectCreation _ _ _ _ _ ih =>
    exact starts_all ⟨starts_qualified (.inl (by decide)) ih, .inr (hcalm (by decide))⟩
  | methodCall _ _ _ _ ih =>
    exact starts_all ⟨starts_qualified (.inl (by decide)) ih,
      .inr ⟨starts_angles (.inl (by decide)), .inr (hcalm (isOf_isCalm_name _))⟩⟩
  | fieldAccess _ _ ih | arrayAccess _ _ ih | binary _ _ _ ih | assignment _ _ _ ih
  | conditional _ _ _ ih | instanceOf _ _ ih | methodReference _ _ _ ih =>
    exact starts_all ⟨ih, .inr (hcalm (by decide))⟩
  | lambda _ _ ih =>
    exact starts_all ⟨ih.mono fun _ => .inl, .inr (hcalm (by decide))⟩
  | classLiteral _ ih =>
    exact starts_all ⟨starts_of_opensType ih, .inr (hcalm (by decide))⟩
  | typeTarget _ ih => exact starts_of_opensType ih
  | arrayCreation | arrayInitializer | cast | parenthesized | switchExpression =>
    exact starts_cons.mpr (.inl (by decide))
  | unary operator operand ih =>
    change Starts (SignedBy (if operator.isPostfix then operand.sign? else some operator))
      (operationScript _ _ _)
    unfold operationScript
    split
    · cases operand with
      | located tree => exact starts_all ⟨ih, .inl (script_ne_nil tree)⟩
    · exact starts_cons.mpr (.inr ⟨operator, rfl, rfl⟩)
  | implicitParameters names inParens =>
    change Starts _ (implicitScript names inParens)
    unfold implicitScript
    split
    · exact starts_cons.mpr (isOf_isCalm_name _)
    · exact starts_cons.mpr (by decide)
  | explicitParameters => exact starts_cons.mpr (by decide)
  -- Types
  | primitiveType _ _ ih | wildcardType _ _ ih =>
    exact starts_all ⟨hannotations ih fun m hm => hm.mono fun _ => TokenKind.opensType_of_opensName,
      .inr ⟨starts_cons.mpr rfl, .inl (List.cons_ne_nil _ _)⟩⟩
  | voidType | varType => exact starts_cons.mpr (by decide)
  | classType _ ih =>
    refine starts_join (ih.imp fun s hs => ?_)
    obtain ⟨_, hne, hs⟩ := hs
    exact ⟨hs.mono fun m hm => hm.mono fun _ => TokenKind.opensType_of_opensName, .inl hne⟩
  | classTypeSegment _ name _ ih | typeParameter _ name _ ih =>
    exact ⟨all_ne_nil (by simp), starts_all ⟨hannotations ih fun m hm => hm,
      .inr ⟨starts_cons.mpr (isOf_opensName_name name), .inl (List.cons_ne_nil _ _)⟩⟩⟩
  | arrayType _ _ ih ihdimensions =>
    refine starts_all ⟨ih, .inr ⟨starts_flatten (ihdimensions.imp fun s hs => ?_), .inr trivial⟩⟩
    obtain ⟨_, hs⟩ := hs
    exact hs.mono (isOf_of_leftBracket rfl)
  | intersectionType _ ih | unionType _ ih =>
    exact starts_join (ih.imp fun _ hs => hs.elim fun _ hs => ⟨hs, .inr (starts_cons.mpr trivial)⟩)
  | dimension =>
    exact starts_all ⟨starts_list (starts_cons.mpr trivial) (List.cons_ne_nil _ _),
      .inr ⟨starts_cons.mpr rfl, .inr trivial⟩⟩
  -- Annotations
  | annotationUse => exact starts_cons.mpr rfl
  | noArguments => exact starts_nil
  | singleArgument | namedArguments => exact starts_cons.mpr rfl
  | _ => trivial

/-- A type starts with a name, a keyword, an annotation or a wildcard. -/
theorem starts_type (type : Node .type) :
    Starts (IsOf TokenKind.opensType) (script type : Script) := headed_script type

/-- So do all types of a list. -/
theorem starts_types (types : Tree (.list (.node .type))) :
    (script types).Forall (Starts (IsOf TokenKind.opensType)) :=
  List.Forall.imp (fun _ ⟨_, h⟩ => h) (headed_script types)

/-- So do all types of a list that may be missing. -/
theorem starts_optionalTypes (types : Tree (.option (.list (.node .type)))) :
    (script types).toList.Forall (List.Forall (Starts (IsOf TokenKind.opensType))) := by
  cases types with
  | absent => trivial
  | present types => exact starts_types types

/-- Type parameters start as types do. -/
theorem starts_typeParameters (parameters : Tree (.list (.node .typeParameter))) :
    (script parameters).Forall (Starts (IsOf TokenKind.opensType)) :=
  List.Forall.imp (fun _ ⟨_, _, h⟩ => h.mono fun _ hm => hm.mono fun _ =>
    TokenKind.opensType_of_opensName) (headed_script parameters)

/-- The segments of a class type start with names or annotations, and none is empty. -/
theorem starts_segments (segments : Tree (.list .classTypeSegment)) :
    (script segments).Forall fun s => s ≠ [] ∧ Starts (IsOf TokenKind.opensName) s :=
  List.Forall.imp (fun _ ⟨_, h⟩ => h) (headed_script segments)

/-- Pairs of brackets dock, and so do their annotations, which have a gap before them. -/
theorem starts_ranks (dimensions : Tree (.list .dimension)) :
    (script dimensions).Forall (Starts (IsOf TokenKind.docks)) :=
  List.Forall.imp (fun _ ⟨_, h⟩ => h.mono (isOf_of_leftBracket rfl)) (headed_script dimensions)

/-- The arguments of an annotation dock. -/
theorem starts_arguments (arguments : Tree .annotationArguments) :
    Starts (IsOf TokenKind.docks) (script arguments : Script) := headed_script arguments

end Tree

/-! ### Where the parts of trees touch -/

/-- All nodes in a list keep the rules. -/
def Part.AllKept (ps : List Part) : Prop := ∀ p ∈ ps, p.Kept

/-- Two lists of nodes keep the rules if each of them does. -/
theorem Part.allKept_append {ps qs : List Part} :
    AllKept (ps ++ qs) ↔ AllKept ps ∧ AllKept qs := List.forall_mem_append

/-- What may stand behind the script of a form. -/
def Form.Seamed : (f : Form) → f.Scripted → Prop
  | .list f => List.Forall f.Seamed
  | .option f => fun o => o.toList.Forall f.Seamed
  | .node f => f.Seamed
  | .switchGroup => Script.Before TokenKind.isNone
  | .expression | .instanceOfTarget | .lambdaParameters | .lambdaBody | .referenceTarget
  | .switchBody | .switchRule | .ruleBody | .switchLabel | .caseLabel | .statement
  | .localVariable | .forInit | .catchClause | .resource | .block | .type | .classTypeSegment
  | .dimension | .wildcardBound | .typeParameter | .pattern | .annotationUse
  | .annotationArguments | .elementValue | .elementValuePair | .modifier | .parameter
  | .variableDeclarator | .typeDeclaration | .enumConstant | .member | .directive
  | .moduleDeclaration | .packageDeclaration | .importDeclaration | .compilationUnit =>
    Script.Before TokenKind.docks

/-- The forms of trees that hold expressions without a node around them. -/
def Form.isBare : Form → Bool
  | .expression => true
  | .list f | .option f => f.isBare
  | .node f => f.isBare && f != .expression
  | _ => false

namespace Tree

open Script JavaSyntax.Part

variable {f : Form}

/-- Nothing is known about a tree without nodes around its expressions, unless it is one. -/
def Poised (t : Tree f) : Prop := f.isBare = true → f = .expression ∧ t.WellFormed

/-- Nothing has to be known about trees that hold no expressions without a node. -/
theorem poised_of_isBare {t : Tree f} (h : f.isBare = false) : t.Poised := by
  intro hbare
  rw [h] at hbare
  cases hbare

end Tree

namespace UnaryOperator

/-- Operators in front of their operands that start with different characters may touch. -/
theorem mayTouch_token (operator : UnaryOperator) {inner : UnaryOperator}
    (h : operator.isPostfix = false) (hinner : inner.isPostfix = false)
    (hne : operator.symbol.toList.head? ≠ inner.symbol.toList.head?) :
    operator.token.mayTouch inner.token = true := by
  cases operator <;> cases inner <;>
    first | cases h; done | cases hinner; done | exact absurd rfl hne | rfl

/-- A prefix operator may touch what does not go on it. -/
theorem mayTouch_of_isCalm (operator : UnaryOperator) {kind : TokenKind}
    (h : operator.isPostfix = false) (hkind : kind.isCalm = true) :
    operator.token.mayTouch kind = true := by
  have hoperator : operator.token.isFence = true ∨ operator.token.precedesOperands = true := by
    cases operator <;> first | cases h; done | decide
  rcases hoperator with hoperator | hoperator <;> simp [TokenKind.mayTouch, hoperator, hkind]

end UnaryOperator

namespace Tree

open Script JavaSyntax.Part

variable {f : Form}

/-- An operator in front of its operand is kept apart from an operator that this starts with. -/
theorem before_operation {operator : UnaryOperator} {operand : Tree .expression}
    (h : Before TokenKind.docks operand.script)
    (hprefixed : operator.isPostfix = false → operand.sign?.isSome = true →
      operand.isPrefixed = true) :
    Before TokenKind.docks
      (operationScript operator (operatorMargin operator operand) operand.script) := by
  unfold operationScript
  split
  · rename_i hpostfix
    have hoperator : operator.token.docks = true ∧ operator.token.isLast = true := by
      cases operator <;> first | cases hpostfix; done | decide
    simpa [all] using h.append_cons (m := .sign operator.token) hoperator.1
      (before_last hoperator.2)
  rename_i hpostfix
  rw [Bool.not_eq_true] at hpostfix
  unfold operatorMargin
  split
  · simpa [all] using before_cons_cons.mpr ⟨rfl, before_gap.append_any h⟩
  rename_i hmargin
  have hoperator : Before (fun k => operator.token.mayTouch k) [.sign operator.token] :=
    before_word fun _ => id
  have hstarts : Starts (IsOf fun k => operator.token.mayTouch k) operand.script := by
    refine (headed_script operand).mono fun m hm => ?_
    rcases hm with hm | ⟨operator', hsign, rfl⟩
    · refine hm.mono fun k hk => ?_
      exact operator.mayTouch_of_isCalm hpostfix hk
    · have hunary := hprefixed hpostfix (Option.isSome_of_mem hsign)
      cases operand with
      | unary inner operand =>
        have hinner : inner.isPostfix = false := by simpa [isPrefixed] using hunary
        obtain rfl : inner = operator' := by
          have hsome : (if inner.isPostfix then operand.sign? else some inner) = some operator' :=
            hsign
          simpa [hinner] using hsome
        refine operator.mayTouch_token hpostfix hinner fun hsame => hmargin ?_
        rw [hsame]
        cases inner <;> first | cases hinner; done | rfl
      | _ => cases hunary
  have hall := hoperator.append (fun more _ => hstarts.append (.inl (script_ne_nil operand))) h
  simpa [all] using hall

/-- What is printed for a tree whose nodes keep the rules may stand before anything that docks,
and its words touch only where they may. -/
theorem seamed_script (t : Tree f) (ht : t.Poised) (h : AllKept t.parts) :
    f.Seamed t.script := by
  induction t
  case nil | absent => trivial
  case cons g head tail ihhead ihtail =>
    have hbare : g.isBare = false := Bool.eq_false_iff.mpr fun hbare => nomatch (ht hbare).1
    have hparts := allKept_append.mp h
    exact (List.forall_cons ..).mpr ⟨ihhead (poised_of_isBare hbare) hparts.1,
      ihtail (fun hlist => nomatch (ht hlist).1) hparts.2⟩
  case present g tree ih =>
    exact ih (poised_of_isBare (Bool.eq_false_iff.mpr fun hbare => nomatch (ht hbare).1)) h
  case located g tree span source ih =>
    have hkept : Part.Kept ⟨g, .located tree span source⟩ := h _ List.mem_cons_self
    refine ih (fun hbare => ?_) fun q hq => hkept.of_mem_children hq
    by_cases hform : g = .expression
    · exact ⟨hform, hkept.regular.wellFormed⟩
    · have hnode : (Form.node g).isBare = true := by simp [Form.isBare, hbare, hform]
      exact nomatch (ht hnode).1
  case unary operator operand ih =>
    cases operand with
    | located operand => exact before_operation (ih (poised_of_isBare rfl) h) (ht rfl).2
  case literal l => exact before_literal l
  case simpleName name => exact before_name name
  case nonSealedModifier =>
    exact before_cons_cons.mpr ⟨rfl, before_cons_cons.mpr ⟨rfl, before_name "sealed"⟩⟩
  case implicitParameters names inParens => exact before_implicit names inParens
  case' classType ih | this ih | super ih | fieldAccess ih | arrayInitializer ih | classLiteral ih
    | parenthesized ih | testType ih | testPattern ih | explicitParameters ih | lambdaExpression ih
    | lambdaBlock ih | expressionTarget ih | typeTarget ih | rules ih | groups ih
    | ruleExpression ih | ruleBlock ih | ruleThrow ih | caseConstant ih | casePattern ih | block ih | blockStatement ih
    | expressionStatement ih | localVariable ih | localClass ih | returnStatement ih
    | throwStatement ih | labeledStatement ih | yieldStatement ih | forDeclaration ih
    | forExpressions ih | resourceExpression ih | primitiveType ih | dimension ih | extendsBound ih
    | superBound ih | intersectionType ih | unionType ih | annotationUse ih | singleArgument ih
    | namedArguments ih | elementExpression ih | elementAnnotated ih | elementArray ih
    | elementValuePair ih | annotatedModifier ih | variableDeclarator ih | initializerBlock ih
    | memberType ih | uses ih | packageDeclaration ih =>
    have hchild := ih (poised_of_isBare rfl) h
  case' switchGroup | arrayType | arrayAccess | binary | assignment | instanceOf | cast | lambda
    | methodReference | switchExpression | switchRule | switchLabel | whileStatement | doStatement
    | switchStatement | synchronizedStatement | assertStatement | wildcardType | classTypeSegment
    | typeParameter | typePattern | recordPattern | parameter | annotationTypeDeclaration
    | compactConstructor | provides | moduleDeclaration =>
    have hparts := allKept_append.mp h
    simp +decide only [poised_of_isBare, hparts, true_implies] at *
  case' methodCall | objectCreation | arrayCreation | conditional | ifStatement | forStatement
    | forEachStatement | tryStatement | constructorInvocation | localVariables | catchClause
    | resourceDeclaration | classDeclaration | interfaceDeclaration | enumDeclaration
    | recordDeclaration | enumConstant | fieldDeclaration | methodDeclaration
    | constructorDeclaration | compilationUnit =>
    have hparts := allKept_append.mp h
    simp only [allKept_append] at hparts
    simp +decide only [poised_of_isBare, hparts, true_implies] at *
  case testType | testPattern | lambdaExpression | lambdaBlock | expressionTarget | typeTarget
    | ruleBlock | ruleThrow | caseConstant | casePattern | blockStatement | localClass
    | forDeclaration | resourceExpression | elementExpression | elementAnnotated
    | annotatedModifier | memberType => exact hchild
  case rules | groups | block => exact (before_braced hchild).mono fun _ _ => rfl
  case explicitParameters | namedArguments => exact (before_parens hchild).mono fun _ _ => rfl
  case forExpressions => exact before_commas hchild
  case intersectionType | unionType =>
    exact before_join (before_cons_cons.mpr ⟨rfl, before_cons_cons.mpr ⟨rfl, before_gap⟩⟩)
      (List.cons_ne_nil _ _) (starts_cons.mpr trivial) hchild
  case classType => exact before_join_dot hchild (starts_segments _)
  case arrayType element dimensions ih ihdimensions =>
    have hranks := starts_ranks dimensions
    exact Seamed.before ⟨⟨trivial, .inr (.inl ⟨before_flatten ihdimensions hranks, trivial⟩)⟩,
      .inr (.inl ⟨ih, starts_flatten hranks, .inr trivial⟩)⟩
  case classTypeSegment annotations name typeArguments ih ihtypes =>
    have htypes := before_optionalArguments ihtypes (starts_optionalTypes typeArguments)
    exact Seamed.before ⟨⟨⟨trivial, .inr (.inl ⟨htypes, trivial⟩)⟩, .inr (.inl ⟨before_name name,
      starts_optionalArguments rfl, .inr trivial⟩)⟩, .inl (before_prefixes ih)⟩
  case switchGroup labels statements ih ihstatements => exact before_group ih ihstatements
  case switchLabel labels guard ih ihguard => exact before_labels ih ihguard
  case compilationUnit => exact before_sections ‹_› ‹_› ‹_› ‹_›
  case noArguments => exact before_nil
  case varType | unnamedPattern | sealedModifier => exact before_name _
  case caseNull | caseDefault | voidType | emptyMember | emptyStatement | keywordModifier =>
    exact before_last rfl
  all_goals
    simp only [Form.Seamed] at *
    refine Seamed.before ?_
    -- what may stand behind each part is known by its lemma or by induction, and so is what the
    -- part behind it starts with
    simp +decide only [Seamed, Leads, clause, before_cons_cons, before_nil, before_gap,
      before_dot, before_name, before_keyword, before_fence, before_last, before_isNone,
      before_qualified, before_angles, before_parens, before_bracedLines, before_prefixes,
      before_leading, before_join, before_list, before_optionalLast, before_optionalName,
      before_optionalId, before_optionalBody, before_optionalParens, before_onlyIf, before_times,
      before_dots, before_path, before_requirements, before_newDimensions, before_methodEnd,
      before_enum, before_leadingParameters, before_target, starts_cons, starts_nil, starts_list,
      starts_angles, starts_parens, parens_ne_nil, starts_bracedLines, starts_optionalLast,
      starts_optionalName, starts_optionalBody, starts_optionalParens, starts_followsAngles,
      starts_onlyIf, starts_times, starts_leading, starts_newDimensions, starts_methodEnd,
      starts_target, starts_types, starts_typeParameters, starts_type, starts_arguments,
      isOf_opensMember_name, isOf_followsAngles_name, *,
      List.cons_ne_nil, not_false_eq_true, ne_eq, true_and, and_true, true_or, or_true]

end Tree

/-! ### Reading the words of a tree again -/

/-- A word suits the next one, if that touches it. -/
def Mark.Suits : Mark → Mark → Prop
  | word kind _, word next _ => kind.Suits next
  | _, _ => True

/-- A number goes on with the dot that the next word starts with. -/
def Mark.Lengthens : Mark → Mark → Prop
  | word kind text, word _ next => isOpenNumber kind text = true ∧ next.toList.head? = some '.'
  | _, _ => False

instance : (m next : Mark) → Decidable (m.Lengthens next)
  | .word kind text, .word _ next =>
    inferInstanceAs (Decidable (isOpenNumber kind text = true ∧ next.toList.head? = some '.'))
  | .gap, _ | .word .., .gap => isFalse id

/-- No number in a script touches a dot behind it that it goes on with. -/
abbrev Script.NumbersEnd (ms : Script) : Prop := ms.IsChain fun m next => ¬ m.Lengthens next

namespace TokenKind

/-- Whether a kind suits another one depends on how that one may start. -/
theorem Suits.congr {kind next other : TokenKind} (h : kind.Suits next)
    (hsame : other.openers = next.openers) : kind.Suits other := by
  intro c hc
  rw [hsame] at hc
  exact h c hc

end TokenKind

namespace Script

variable {ms : Script} {kind : TokenKind} {text : String}

/-- Closing angles start with the same character, however many of them there are. -/
theorem suits_head_fuse (h : ∀ m ∈ ms.head?, (Mark.word kind text).Suits m) :
    ∀ m ∈ (fuse ms).head?, (Mark.word kind text).Suits m := by
  fun_cases fuse ms with
  | case1 a b c ms | case2 a b ms =>
    rintro m ⟨⟩
    have hone : kind.Suits .greater := h _ rfl
    exact hone.congr (by decide)
  | case3 m ms => exact h
  | case4 => nofun

/-- In a script that is sewn every word suits the next one, once closing angles are put
together. -/
theorem Sewn.suits_fuse (h : ms.Sewn) : (fuse ms).IsChain Mark.Suits := by
  fun_induction fuse ms with
  | case1 a b c ms ih =>
    have hangle := h.of_cons.of_cons
    refine List.isChain_cons.mpr ⟨suits_head_fuse fun m hm => ?_, ih hangle.of_cons⟩
    cases m with
    | gap => trivial
    | word k =>
      have htouches : TokenKind.greater.mayTouch k = true := (List.isChain_cons.mp hangle).1 _ hm
      exact TokenKind.suits_of_mayTouch_greater htouches (.inr rfl) fun h => by cases h
  | case2 a b ms hmore ih =>
    have hangle := h.of_cons
    refine List.isChain_cons.mpr ⟨suits_head_fuse fun m hm => ?_, ih hangle.of_cons⟩
    cases m with
    | gap => trivial
    | word k c =>
      have htouches : TokenKind.greater.mayTouch k = true := (List.isChain_cons.mp hangle).1 _ hm
      -- a third angle would have been put together with the two
      refine TokenKind.suits_of_mayTouch_greater htouches (.inl rfl) fun _ hk => ?_
      obtain ⟨ms', rfl⟩ := List.head?_eq_some_iff.mp hm
      exact hmore c ms' (by rw [hk])
  | case3 m ms hthree htwo ih =>
    cases m with
    | gap => exact List.isChain_cons.mpr ⟨fun _ _ => trivial, ih h.of_cons⟩
    | word kind a =>
      refine List.isChain_cons.mpr ⟨suits_head_fuse fun m hm => ?_, ih h.of_cons⟩
      cases m with
      | gap => trivial
      | word k b =>
        have htouches : kind.mayTouch k = true := (List.isChain_cons.mp h).1 _ hm
        refine TokenKind.suits_of_mayTouch htouches fun hkind hk => ?_
        obtain ⟨ms', rfl⟩ := List.head?_eq_some_iff.mp hm
        exact htwo a b ms' (by rw [hkind]) (by rw [hk])
  | case4 => exact .nil

/-- Words that suit each other keep apart, unless a number goes on with a dot. -/
theorem keepsApart_of_suits (h : ms.IsChain Mark.Suits)
    (hwords : ∀ w ∈ ms.words, IsWord w.1 w.2) (hnumbers : ms.NumbersEnd) :
    ms.IsChain Mark.KeepsApart := by
  induction ms with
  | nil => exact .nil
  | cons m ms ih =>
    obtain ⟨hsuits, htail⟩ := List.isChain_cons.mp h
    obtain ⟨hnumber, hrest⟩ := List.isChain_cons.mp hnumbers
    cases m with
    | gap => exact List.isChain_cons.mpr ⟨fun _ _ => trivial, ih htail hwords hrest⟩
    | word kind text =>
      obtain ⟨hword, hmore⟩ := List.forall_mem_cons.mp hwords
      refine List.isChain_cons.mpr ⟨fun next hnext => ?_, ih htail hmore hrest⟩
      cases next with
      | gap => trivial
      | word k more =>
        obtain ⟨ms', rfl⟩ := List.head?_eq_some_iff.mp hnext
        exact hword.kindOf_head (hmore (k, more) List.mem_cons_self) (hsuits _ rfl)
          fun hopen hdot => hnumber _ rfl ⟨hopen, hdot⟩

end Script

/-- The words of a tree whose script is sewn are read one by one as they are printed, unless a
number goes on with a dot. -/
theorem Tree.keepsApart_setting {f : Form} {t : Tree f} (h : (f.unroll t.script).Sewn)
    (hwords : ∀ w ∈ t.wording, IsWord w.1 w.2) (hnumbers : t.setting.NumbersEnd) :
    t.setting.IsChain Mark.KeepsApart :=
  Script.keepsApart_of_suits h.suits_fuse hwords hnumbers

end JavaSyntax
