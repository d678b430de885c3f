import JavaSyntax.Proofs.Token.Mirror
import JavaSyntax.Proofs.Tree.Bare
import Mathlib.Data.List.Forall2

/-!
# Likeness

What two parses hold in their hands while they run side by side: trees that are structurally
equal, tokens that match, and values that are the same. Likeness of two expressions is found
from that of their parts.
-/

namespace JavaSyntax

namespace Mirror

/-- When two values of a type are alike. -/
class Likeness (M : Mirror) (α : Type) where
  Like : α → α → Prop

/-- Two values are alike. -/
abbrev Like (M : Mirror) {α : Type} [M.Likeness α] (a b : α) : Prop := Likeness.Like M a b

namespace Likeness

variable {M : Mirror} {α β : Type}

/-- Values of a type that holds neither trees nor tokens are alike if they are the same. -/
instance (priority := low) same : M.Likeness α := ⟨Eq⟩

/-- Trees are alike if they are structurally equal. -/
instance {f : Form} : M.Likeness (Tree f) := ⟨fun t u => t.bare = u.bare⟩

instance : M.Likeness Token := ⟨M.Match⟩

/-- Functions are alike if they take alike values to alike values. -/
instance [M.Likeness α] [M.Likeness β] : M.Likeness (α → β) :=
  ⟨fun f g => ∀ ⦃a b⦄, M.Like a b → M.Like (f a) (g b)⟩

instance [M.Likeness α] : M.Likeness (List α) := ⟨List.Forall₂ M.Like⟩

instance [M.Likeness α] : M.Likeness (Option α) := ⟨Option.Rel M.Like⟩

instance [M.Likeness α] [M.Likeness β] : M.Likeness (α × β) :=
  ⟨fun x y => M.Like x.1 y.1 ∧ M.Like x.2 y.2⟩

end Likeness

/-- Two values that are alike, as an instance. -/
class Alike (M : Mirror) {α : Type} [M.Likeness α] (a b : α) : Prop where
  like : M.Like a b

/-- Two values together with their likeness. -/
structure Pair (M : Mirror) (α : Type) [M.Likeness α] where
  left : α
  right : α
  like : M.Like left right

/-- A type of which every value is like itself. -/
class Reflexive (M : Mirror) (α : Type) [M.Likeness α] : Prop where
  refl : ∀ a : α, M.Like a a

/-- A type of which a value is like itself and like no other. -/
class Plain (M : Mirror) (α : Type) [M.Likeness α] : Prop where
  like_iff : ∀ {a b : α}, M.Like a b ↔ a = b

variable {M : Mirror} {α β : Type} [M.Likeness α] [M.Likeness β]

/-! ### Types -/

instance {α : Type} : @Plain M α Likeness.same := @Plain.mk M α Likeness.same Iff.rfl

instance [h : M.Plain α] : M.Plain (List α) where
  like_iff {as bs} := by
    have hlike : (M.Like : α → α → Prop) = Eq := by
      funext a b
      exact propext h.like_iff
    change List.Forall₂ M.Like as bs ↔ as = bs
    rw [hlike, List.forall₂_eq_eq_eq]

instance [h : M.Plain α] : M.Plain (Option α) where
  like_iff {a b} := by
    constructor
    · intro hrel
      cases hrel with
      | some hlike => rw [h.like_iff.mp hlike]
      | none => rfl
    · rintro rfl
      cases a with
      | none => exact .none
      | some a => exact .some (h.like_iff.mpr rfl)

instance [hα : M.Plain α] [hβ : M.Plain β] : M.Plain (α × β) where
  like_iff {x y} := by
    rw [Prod.ext_iff, ← hα.like_iff, ← hβ.like_iff]
    rfl

instance (priority := low) [h : M.Plain α] : M.Reflexive α := ⟨fun _ => h.like_iff.mpr rfl⟩

instance {f : Form} : M.Reflexive (Tree f) := ⟨fun _ => rfl⟩

instance [h : M.Reflexive α] : M.Reflexive (List α) where
  refl _ := List.forall₂_same.mpr fun a _ => h.refl a

instance [h : M.Reflexive α] : M.Reflexive (Option α) where
  refl a := by
    cases a with
    | none => exact .none
    | some a => exact .some (h.refl a)

instance [hα : M.Reflexive α] [hβ : M.Reflexive β] : M.Reflexive (α × β) where
  refl x := ⟨hα.refl x.1, hβ.refl x.2⟩

/-- A function of something plain cannot tell alike arguments apart. -/
instance [hα : M.Plain α] [hβ : M.Reflexive β] : M.Reflexive (α → β) where
  refl f a b h := by
    rw [hα.like_iff.mp h]
    exact hβ.refl (f b)

/-! ### Expressions -/

namespace Alike

variable {f g : α → β} {a b : α}

instance [hf : M.Alike f g] [ha : M.Alike a b] : M.Alike (f a) (g b) := ⟨hf.like ha.like⟩

instance (priority := high) [h : M.Reflexive α] (a : α) : M.Alike a a := ⟨h.refl a⟩

instance (priority := high) (r : M.Pair α) : M.Alike r.left r.right := ⟨r.like⟩

/-- Plain values that are alike are equal. -/
theorem eq [h : M.Plain α] [hlike : M.Alike a b] : a = b := h.like_iff.mp hlike.like

end Alike

/-! ### Tokens -/

section Tokens

variable {t u : Token}

instance [h : M.Alike t u] : M.Alike t.kind u.kind := ⟨congrArg Word.kind (M.word_eq h.like).symm⟩

instance [h : M.Alike t u] : M.Alike t.source u.source :=
  ⟨congrArg Word.text (M.word_eq h.like).symm⟩

instance [h : M.Alike t u] : M.Alike t.value u.value where
  like := Plain.like_iff.mpr (congrArg Word.value (M.word_eq h.like).symm)

instance [h : M.Alike t u] : M.Alike t.isEnd u.isEnd :=
  inferInstanceAs (M.Alike (t.kind == .endOfInput) (u.kind == .endOfInput))

instance [h : M.Alike t u] (word : String) : M.Alike (t.isWord word) (u.isWord word) :=
  inferInstanceAs (M.Alike (t.kind == .identifier && t.source == word)
    (u.kind == .identifier && u.source == word))

end Tokens

/-! ### Lists, options and pairs -/

instance : M.Alike ([] : List α) [] := ⟨.nil⟩

instance : M.Alike (@List.cons α) List.cons := ⟨fun _ _ h _ _ hs => .cons h hs⟩

instance : M.Alike (@List.reverse α) List.reverse := ⟨fun _ _ h => List.rel_reverse h⟩

instance : M.Alike (@List.map α β) List.map where
  like _ _ hf _ _ h := by
    refine List.forall₂_map_left_iff.mpr (List.forall₂_map_right_iff.mpr ?_)
    exact h.imp fun _ _ hab => hf hab

instance : M.Alike (@List.isEmpty α) List.isEmpty where
  like _ _ h := by cases h <;> rfl

instance : M.Alike (@List.length α) List.length := ⟨fun _ _ h => h.length_eq⟩

instance : M.Alike (none : Option α) none := ⟨.none⟩

instance : M.Alike (@some α) some := ⟨fun _ _ h => .some h⟩

instance : M.Alike (@Option.map α β) Option.map where
  like _ _ hf _ _ h := by
    cases h with
    | some h => exact .some (hf h)
    | none => exact .none

instance : M.Alike (@Option.getD α) Option.getD where
  like _ _ h _ _ hd := by
    cases h with
    | some h => exact h
    | none => exact hd

instance : M.Alike (@Option.isNone α) Option.isNone where
  like _ _ h := by cases h <;> rfl

instance : M.Alike (@Prod.mk α β) Prod.mk := ⟨fun _ _ h _ _ k => ⟨h, k⟩⟩

/-! ### Trees -/

section Trees

variable {f : Form}

instance : M.Alike (@Tree.ofList f) Tree.ofList where
  like ts us h := by
    have hbare : ts.map Tree.bare = us.map Tree.bare := by
      induction h with
      | nil => rfl
      | cons h _ ih => rw [List.map_cons, List.map_cons, ih, show _ = _ from h]
    change (Tree.ofList ts).bare = (Tree.ofList us).bare
    rw [Tree.bare_ofList, Tree.bare_ofList, hbare]

instance : M.Alike (@Tree.ofOption f) Tree.ofOption where
  like _ _ h := by
    cases h with
    | some h => exact congrArg Tree.present h
    | none => rfl

instance : M.Alike (@Tree.inner f) Tree.inner where
  like t u h := by
    change t.inner.bare = u.inner.bare
    rw [← Tree.inner_bare, ← Tree.inner_bare]
    exact congrArg Tree.inner h

/-! ### Lists, options and nodes -/

/-- The place of a node makes no difference. -/
instance {t u : Tree f} [h : M.Alike t u] (p q : Span) (v w : String) :
    M.Alike (Tree.located t p v) (Tree.located u q w) where
  like := congrArg (Tree.located · .nowhere "") h.like

instance : M.Alike (@Tree.present f) Tree.present := ⟨fun _ _ h =>
  (congrArg Tree.present h :)⟩

/-! ### Expressions -/

instance : M.Alike Tree.this Tree.this := ⟨fun _ _ h => (congrArg Tree.this h :)⟩

instance : M.Alike Tree.super Tree.super := ⟨fun _ _ h => (congrArg Tree.super h :)⟩

instance : M.Alike Tree.fieldAccess Tree.fieldAccess := ⟨fun _ _ h₁ _ _ h₂ =>
  (congr (congrArg Tree.fieldAccess h₁) h₂ :)⟩

instance : M.Alike Tree.arrayAccess Tree.arrayAccess := ⟨fun _ _ h₁ _ _ h₂ =>
  (congr (congrArg Tree.arrayAccess h₁) h₂ :)⟩

instance : M.Alike Tree.methodCall Tree.methodCall := ⟨fun _ _ h₁ _ _ h₂ _ _ h₃ _ _ h₄ =>
  (congr (congr (congr (congrArg Tree.methodCall h₁) h₂) h₃) h₄ :)⟩

instance : M.Alike Tree.objectCreation Tree.objectCreation :=
  ⟨fun _ _ h₁ _ _ h₂ _ _ h₃ _ _ h₄ _ _ h₅ =>
    (congr (congr (congr (congr (congrArg Tree.objectCreation h₁) h₂) h₃) h₄) h₅ :)⟩

instance : M.Alike Tree.arrayCreation Tree.arrayCreation :=
  ⟨fun _ _ h₁ _ _ h₂ _ _ h₃ _ _ h₄ _ _ h₅ =>
    (congr (congr (congr (congr (congrArg Tree.arrayCreation h₁) h₂) h₃) h₄) h₅ :)⟩

instance : M.Alike Tree.arrayInitializer Tree.arrayInitializer := ⟨fun _ _ h =>
  (congrArg Tree.arrayInitializer h :)⟩

instance : M.Alike Tree.unary Tree.unary := ⟨fun _ _ h₁ _ _ h₂ =>
  (congr (congrArg Tree.unary h₁) h₂ :)⟩

instance : M.Alike Tree.binary Tree.binary := ⟨fun _ _ h₁ _ _ h₂ _ _ h₃ =>
  (congr (congr (congrArg Tree.binary h₁) h₂) h₃ :)⟩

instance : M.Alike Tree.assignment Tree.assignment := ⟨fun _ _ h₁ _ _ h₂ _ _ h₃ =>
  (congr (congr (congrArg Tree.assignment h₁) h₂) h₃ :)⟩

instance : M.Alike Tree.conditional Tree.conditional := ⟨fun _ _ h₁ _ _ h₂ _ _ h₃ =>
  (congr (congr (congrArg Tree.conditional h₁) h₂) h₃ :)⟩

instance : M.Alike Tree.instanceOf Tree.instanceOf := ⟨fun _ _ h₁ _ _ h₂ =>
  (congr (congrArg Tree.instanceOf h₁) h₂ :)⟩

instance : M.Alike Tree.cast Tree.cast := ⟨fun _ _ h₁ _ _ h₂ =>
  (congr (congrArg Tree.cast h₁) h₂ :)⟩

instance : M.Alike Tree.lambda Tree.lambda := ⟨fun _ _ h₁ _ _ h₂ =>
  (congr (congrArg Tree.lambda h₁) h₂ :)⟩

instance : M.Alike Tree.methodReference Tree.methodReference := ⟨fun _ _ h₁ _ _ h₂ _ _ h₃ =>
  (congr (congr (congrArg Tree.methodReference h₁) h₂) h₃ :)⟩

instance : M.Alike Tree.classLiteral Tree.classLiteral := ⟨fun _ _ h =>
  (congrArg Tree.classLiteral h :)⟩

instance : M.Alike Tree.parenthesized Tree.parenthesized := ⟨fun _ _ h =>
  (congrArg Tree.parenthesized h :)⟩

instance : M.Alike Tree.switchExpression Tree.switchExpression := ⟨fun _ _ h₁ _ _ h₂ =>
  (congr (congrArg Tree.switchExpression h₁) h₂ :)⟩

/-! ### Parts of expressions -/

instance : M.Alike Tree.testType Tree.testType := ⟨fun _ _ h => (congrArg Tree.testType h :)⟩

instance : M.Alike Tree.testPattern Tree.testPattern := ⟨fun _ _ h =>
  (congrArg Tree.testPattern h :)⟩

instance : M.Alike Tree.explicitParameters Tree.explicitParameters := ⟨fun _ _ h =>
  (congrArg Tree.explicitParameters h :)⟩

instance : M.Alike Tree.lambdaExpression Tree.lambdaExpression := ⟨fun _ _ h =>
  (congrArg Tree.lambdaExpression h :)⟩

instance : M.Alike Tree.lambdaBlock Tree.lambdaBlock := ⟨fun _ _ h =>
  (congrArg Tree.lambdaBlock h :)⟩

instance : M.Alike Tree.expressionTarget Tree.expressionTarget := ⟨fun _ _ h =>
  (congrArg Tree.expressionTarget h :)⟩

instance : M.Alike Tree.typeTarget Tree.typeTarget := ⟨fun _ _ h => (congrArg Tree.typeTarget h :)⟩

/-! ### Switches -/

instance : M.Alike Tree.rules Tree.rules := ⟨fun _ _ h => (congrArg Tree.rules h :)⟩

instance : M.Alike Tree.groups Tree.groups := ⟨fun _ _ h => (congrArg Tree.groups h :)⟩

instance : M.Alike Tree.switchRule Tree.switchRule := ⟨fun _ _ h₁ _ _ h₂ =>
  (congr (congrArg Tree.switchRule h₁) h₂ :)⟩

instance : M.Alike Tree.ruleExpression Tree.ruleExpression := ⟨fun _ _ h =>
  (congrArg Tree.ruleExpression h :)⟩

instance : M.Alike Tree.ruleBlock Tree.ruleBlock := ⟨fun _ _ h => (congrArg Tree.ruleBlock h :)⟩

instance : M.Alike Tree.ruleThrow Tree.ruleThrow := ⟨fun _ _ h => (congrArg Tree.ruleThrow h :)⟩

instance : M.Alike Tree.switchGroup Tree.switchGroup := ⟨fun _ _ h₁ _ _ h₂ =>
  (congr (congrArg Tree.switchGroup h₁) h₂ :)⟩

instance : M.Alike Tree.switchLabel Tree.switchLabel := ⟨fun _ _ h₁ _ _ h₂ =>
  (congr (congrArg Tree.switchLabel h₁) h₂ :)⟩

instance : M.Alike Tree.caseConstant Tree.caseConstant := ⟨fun _ _ h =>
  (congrArg Tree.caseConstant h :)⟩

instance : M.Alike Tree.casePattern Tree.casePattern := ⟨fun _ _ h =>
  (congrArg Tree.casePattern h :)⟩

/-! ### Statements -/

instance : M.Alike Tree.block Tree.block := ⟨fun _ _ h => (congrArg Tree.block h :)⟩

instance : M.Alike Tree.blockStatement Tree.blockStatement := ⟨fun _ _ h =>
  (congrArg Tree.blockStatement h :)⟩

instance : M.Alike Tree.expressionStatement Tree.expressionStatement := ⟨fun _ _ h =>
  (congrArg Tree.expressionStatement h :)⟩

instance : M.Alike Tree.localVariable Tree.localVariable := ⟨fun _ _ h =>
  (congrArg Tree.localVariable h :)⟩

instance : M.Alike Tree.localClass Tree.localClass := ⟨fun _ _ h => (congrArg Tree.localClass h :)⟩

instance : M.Alike Tree.ifStatement Tree.ifStatement := ⟨fun _ _ h₁ _ _ h₂ _ _ h₃ =>
  (congr (congr (congrArg Tree.ifStatement h₁) h₂) h₃ :)⟩

instance : M.Alike Tree.whileStatement Tree.whileStatement := ⟨fun _ _ h₁ _ _ h₂ =>
  (congr (congrArg Tree.whileStatement h₁) h₂ :)⟩

instance : M.Alike Tree.doStatement Tree.doStatement := ⟨fun _ _ h₁ _ _ h₂ =>
  (congr (congrArg Tree.doStatement h₁) h₂ :)⟩

instance : M.Alike Tree.forStatement Tree.forStatement := ⟨fun _ _ h₁ _ _ h₂ _ _ h₃ _ _ h₄ =>
  (congr (congr (congr (congrArg Tree.forStatement h₁) h₂) h₃) h₄ :)⟩

instance : M.Alike Tree.forEachStatement Tree.forEachStatement :=
  ⟨fun _ _ h₁ _ _ h₂ _ _ h₃ _ _ h₄ _ _ h₅ =>
    (congr (congr (congr (congr (congrArg Tree.forEachStatement h₁) h₂) h₃) h₄) h₅ :)⟩

instance : M.Alike Tree.switchStatement Tree.switchStatement := ⟨fun _ _ h₁ _ _ h₂ =>
  (congr (congrArg Tree.switchStatement h₁) h₂ :)⟩

instance : M.Alike Tree.returnStatement Tree.returnStatement := ⟨fun _ _ h =>
  (congrArg Tree.returnStatement h :)⟩

instance : M.Alike Tree.throwStatement Tree.throwStatement := ⟨fun _ _ h =>
  (congrArg Tree.throwStatement h :)⟩

instance : M.Alike Tree.tryStatement Tree.tryStatement := ⟨fun _ _ h₁ _ _ h₂ _ _ h₃ _ _ h₄ =>
  (congr (congr (congr (congrArg Tree.tryStatement h₁) h₂) h₃) h₄ :)⟩

instance : M.Alike Tree.synchronizedStatement Tree.synchronizedStatement := ⟨fun _ _ h₁ _ _ h₂ =>
  (congr (congrArg Tree.synchronizedStatement h₁) h₂ :)⟩

instance : M.Alike Tree.labeledStatement Tree.labeledStatement := ⟨fun _ _ h₁ _ _ h₂ =>
  (congr (congrArg Tree.labeledStatement h₁) h₂ :)⟩

instance : M.Alike Tree.assertStatement Tree.assertStatement := ⟨fun _ _ h₁ _ _ h₂ =>
  (congr (congrArg Tree.assertStatement h₁) h₂ :)⟩

instance : M.Alike Tree.yieldStatement Tree.yieldStatement := ⟨fun _ _ h =>
  (congrArg Tree.yieldStatement h :)⟩

instance : M.Alike Tree.constructorInvocation Tree.constructorInvocation :=
  ⟨fun _ _ h₁ _ _ h₂ _ _ h₃ _ _ h₄ =>
    (congr (congr (congr (congrArg Tree.constructorInvocation h₁) h₂) h₃) h₄ :)⟩

/-! ### Parts of statements -/

instance : M.Alike Tree.localVariables Tree.localVariables := ⟨fun _ _ h₁ _ _ h₂ _ _ h₃ =>
  (congr (congr (congrArg Tree.localVariables h₁) h₂) h₃ :)⟩

instance : M.Alike Tree.forDeclaration Tree.forDeclaration := ⟨fun _ _ h =>
  (congrArg Tree.forDeclaration h :)⟩

instance : M.Alike Tree.forExpressions Tree.forExpressions := ⟨fun _ _ h =>
  (congrArg Tree.forExpressions h :)⟩

instance : M.Alike Tree.catchClause Tree.catchClause := ⟨fun _ _ h₁ _ _ h₂ _ _ h₃ _ _ h₄ =>
  (congr (congr (congr (congrArg Tree.catchClause h₁) h₂) h₃) h₄ :)⟩

instance : M.Alike Tree.resourceDeclaration Tree.resourceDeclaration :=
  ⟨fun _ _ h₁ _ _ h₂ _ _ h₃ _ _ h₄ =>
    (congr (congr (congr (congrArg Tree.resourceDeclaration h₁) h₂) h₃) h₄ :)⟩

instance : M.Alike Tree.resourceExpression Tree.resourceExpression := ⟨fun _ _ h =>
  (congrArg Tree.resourceExpression h :)⟩

/-! ### Types -/

instance : M.Alike Tree.primitiveType Tree.primitiveType := ⟨fun _ _ h₁ _ _ h₂ =>
  (congr (congrArg Tree.primitiveType h₁) h₂ :)⟩

instance : M.Alike Tree.classType Tree.classType := ⟨fun _ _ h => (congrArg Tree.classType h :)⟩

instance : M.Alike Tree.arrayType Tree.arrayType := ⟨fun _ _ h₁ _ _ h₂ =>
  (congr (congrArg Tree.arrayType h₁) h₂ :)⟩

instance : M.Alike Tree.wildcardType Tree.wildcardType := ⟨fun _ _ h₁ _ _ h₂ =>
  (congr (congrArg Tree.wildcardType h₁) h₂ :)⟩

instance : M.Alike Tree.intersectionType Tree.intersectionType := ⟨fun _ _ h =>
  (congrArg Tree.intersectionType h :)⟩

instance : M.Alike Tree.classTypeSegment Tree.classTypeSegment := ⟨fun _ _ h₁ _ _ h₂ _ _ h₃ =>
  (congr (congr (congrArg Tree.classTypeSegment h₁) h₂) h₃ :)⟩

instance : M.Alike Tree.dimension Tree.dimension := ⟨fun _ _ h => (congrArg Tree.dimension h :)⟩

instance : M.Alike Tree.extendsBound Tree.extendsBound := ⟨fun _ _ h =>
  (congrArg Tree.extendsBound h :)⟩

instance : M.Alike Tree.superBound Tree.superBound := ⟨fun _ _ h => (congrArg Tree.superBound h :)⟩

instance : M.Alike Tree.typeParameter Tree.typeParameter := ⟨fun _ _ h₁ _ _ h₂ _ _ h₃ =>
  (congr (congr (congrArg Tree.typeParameter h₁) h₂) h₃ :)⟩

/-! ### Patterns -/

instance : M.Alike Tree.typePattern Tree.typePattern := ⟨fun _ _ h₁ _ _ h₂ _ _ h₃ =>
  (congr (congr (congrArg Tree.typePattern h₁) h₂) h₃ :)⟩

instance : M.Alike Tree.recordPattern Tree.recordPattern := ⟨fun _ _ h₁ _ _ h₂ =>
  (congr (congrArg Tree.recordPattern h₁) h₂ :)⟩

/-! ### Annotations and modifiers -/

instance : M.Alike Tree.annotationUse Tree.annotationUse := ⟨fun _ _ h₁ _ _ h₂ =>
  (congr (congrArg Tree.annotationUse (Plain.like_iff.mp h₁)) h₂ :)⟩

instance : M.Alike Tree.singleArgument Tree.singleArgument := ⟨fun _ _ h =>
  (congrArg Tree.singleArgument h :)⟩

instance : M.Alike Tree.namedArguments Tree.namedArguments := ⟨fun _ _ h =>
  (congrArg Tree.namedArguments h :)⟩

instance : M.Alike Tree.elementExpression Tree.elementExpression := ⟨fun _ _ h =>
  (congrArg Tree.elementExpression h :)⟩

instance : M.Alike Tree.elementAnnotated Tree.elementAnnotated := ⟨fun _ _ h =>
  (congrArg Tree.elementAnnotated h :)⟩

instance : M.Alike Tree.elementArray Tree.elementArray := ⟨fun _ _ h =>
  (congrArg Tree.elementArray h :)⟩

instance : M.Alike Tree.elementValuePair Tree.elementValuePair := ⟨fun _ _ h₁ _ _ h₂ =>
  (congr (congrArg Tree.elementValuePair h₁) h₂ :)⟩

instance : M.Alike Tree.annotatedModifier Tree.annotatedModifier := ⟨fun _ _ h =>
  (congrArg Tree.annotatedModifier h :)⟩

/-! ### Variables and parameters -/

instance : M.Alike Tree.parameter Tree.parameter :=
  ⟨fun _ _ h₁ _ _ h₂ _ _ h₃ _ _ h₄ _ _ h₅ _ _ h₆ =>
    (congr (congr (congr (congr (congr (congrArg Tree.parameter h₁) h₂) h₃) h₄) h₅) h₆ :)⟩

instance : M.Alike Tree.variableDeclarator Tree.variableDeclarator := ⟨fun _ _ h₁ _ _ h₂ _ _ h₃ =>
  (congr (congr (congrArg Tree.variableDeclarator h₁) h₂) h₃ :)⟩

/-! ### Declarations of types and their members -/

instance : M.Alike Tree.classDeclaration Tree.classDeclaration :=
  ⟨fun _ _ h₁ _ _ h₂ _ _ h₃ _ _ h₄ _ _ h₅ _ _ h₆ _ _ h₇ =>
    (congr (congr (congr (congr (congr (congr (congrArg Tree.classDeclaration h₁) h₂) h₃) h₄)
      h₅) h₆) h₇ :)⟩

instance : M.Alike Tree.interfaceDeclaration Tree.interfaceDeclaration :=
  ⟨fun _ _ h₁ _ _ h₂ _ _ h₃ _ _ h₄ _ _ h₅ _ _ h₆ =>
    (congr (congr (congr (congr (congr (congrArg Tree.interfaceDeclaration h₁) h₂) h₃) h₄) h₅)
      h₆ :)⟩

instance : M.Alike Tree.annotationTypeDeclaration Tree.annotationTypeDeclaration :=
  ⟨fun _ _ h₁ _ _ h₂ _ _ h₃ =>
    (congr (congr (congrArg Tree.annotationTypeDeclaration h₁) h₂) h₃ :)⟩

instance : M.Alike Tree.enumDeclaration Tree.enumDeclaration :=
  ⟨fun _ _ h₁ _ _ h₂ _ _ h₃ _ _ h₄ _ _ h₅ =>
    (congr (congr (congr (congr (congrArg Tree.enumDeclaration h₁) h₂) h₃) h₄) h₅ :)⟩

instance : M.Alike Tree.recordDeclaration Tree.recordDeclaration :=
  ⟨fun _ _ h₁ _ _ h₂ _ _ h₃ _ _ h₄ _ _ h₅ _ _ h₆ =>
    (congr (congr (congr (congr (congr (congrArg Tree.recordDeclaration h₁) h₂) h₃) h₄) h₅) h₆
      :)⟩

instance : M.Alike Tree.enumConstant Tree.enumConstant := ⟨fun _ _ h₁ _ _ h₂ _ _ h₃ _ _ h₄ =>
  (congr (congr (congr (congrArg Tree.enumConstant h₁) h₂) h₃) h₄ :)⟩

instance : M.Alike Tree.fieldDeclaration Tree.fieldDeclaration := ⟨fun _ _ h₁ _ _ h₂ _ _ h₃ =>
  (congr (congr (congrArg Tree.fieldDeclaration h₁) h₂) h₃ :)⟩

instance : M.Alike Tree.methodDeclaration Tree.methodDeclaration :=
  ⟨fun _ _ h₁ _ _ h₂ _ _ h₃ _ _ h₄ _ _ h₅ _ _ h₆ _ _ h₇ _ _ h₈ _ _ h₉ =>
    (congr (congr (congr (congr (congr (congr (congr (congr (congrArg Tree.methodDeclaration h₁)
      h₂) h₃) h₄) h₅) h₆) h₇) h₈) h₉ :)⟩

instance : M.Alike Tree.constructorDeclaration Tree.constructorDeclaration :=
  ⟨fun _ _ h₁ _ _ h₂ _ _ h₃ _ _ h₄ _ _ h₅ _ _ h₆ =>
    (congr (congr (congr (congr (congr (congrArg Tree.constructorDeclaration h₁) h₂) h₃) h₄) h₅)
      h₆ :)⟩

instance : M.Alike Tree.compactConstructor Tree.compactConstructor := ⟨fun _ _ h₁ _ _ h₂ _ _ h₃ =>
  (congr (congr (congrArg Tree.compactConstructor h₁) h₂) h₃ :)⟩

instance : M.Alike Tree.initializerBlock Tree.initializerBlock := ⟨fun _ _ h₁ _ _ h₂ =>
  (congr (congrArg Tree.initializerBlock h₁) h₂ :)⟩

instance : M.Alike Tree.memberType Tree.memberType := ⟨fun _ _ h => (congrArg Tree.memberType h :)⟩

/-! ### Modules and compilation units -/

instance : M.Alike Tree.uses Tree.uses := ⟨fun _ _ h => (congrArg Tree.uses h :)⟩

instance : M.Alike Tree.provides Tree.provides := ⟨fun _ _ h₁ _ _ h₂ =>
  (congr (congrArg Tree.provides h₁) h₂ :)⟩

instance : M.Alike Tree.moduleDeclaration Tree.moduleDeclaration :=
  ⟨fun _ _ h₁ _ _ h₂ _ _ h₃ _ _ h₄ =>
    (congr (congr (congr (congrArg Tree.moduleDeclaration h₁) h₂) (Plain.like_iff.mp h₃)) h₄ :)⟩

instance : M.Alike Tree.packageDeclaration Tree.packageDeclaration := ⟨fun _ _ h₁ _ _ h₂ =>
  (congr (congrArg Tree.packageDeclaration h₁) (Plain.like_iff.mp h₂) :)⟩

instance : M.Alike Tree.compilationUnit Tree.compilationUnit := ⟨fun _ _ h₁ _ _ h₂ _ _ h₃ _ _ h₄ =>
  (congr (congr (congr (congrArg Tree.compilationUnit h₁) h₂) h₃) h₄ :)⟩

end Trees

end Mirror

end JavaSyntax
