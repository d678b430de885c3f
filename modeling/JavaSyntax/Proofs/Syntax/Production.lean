import JavaSyntax.Grammar.Levels
import JavaSyntax.Proofs.Work

/-!
# Productions

A production is a parser that uses the state in disciplined ways only: it looks at tokens
and takes them, splits a `>` off only to take it, goes back only to positions that it
has itself passed, and makes nodes only from positions whose token it has looked at.
The relation below is closed under exactly these steps. Everything in the grammar is a
production, so what holds of productions is proved once, by induction over the relation.
-/

namespace JavaSyntax

open JavaSyntax.Parser

/-! ### What a production relies on -/

/-- What a production may rely on, and what it owes in return. -/
inductive Footing where
  /-- Nothing. -/
  | free
  /-- Nothing, but if it succeeds, the token has been looked at where it began. -/
  | looking
  /-- The parse stands at a position or after it, and may go back there. -/
  | marked (n : Nat)
  /-- The same, and the token at that position has been looked at. -/
  | started (n : Nat)
deriving DecidableEq

namespace Footing

/-- A production on the one footing is a production on the other, too. -/
def Covers : Footing → Footing → Prop
  | .looking, _ => True
  | .free, m => m ≠ .looking
  | .marked n, m => m = .marked n ∨ m = .started n
  | .started n, m => m = .started n

/-- The parse is known not to go back before positions up to this one. -/
def AtMost : Footing → Nat → Prop
  | .free, _ | .looking, _ => True
  | .marked b, n | .started b, n => b ≤ n

end Footing

/-- Two states do not differ in what productions may ask about, apart from tokens. -/
structure ParserState.SameFrame (s t : ParserState) : Prop where
  text_eq : s.cursor.text = t.cursor.text
  contexts_eq : s.contexts = t.contexts
  depth_eq : s.depth = t.depth
  lambdas_eq : s.lambdas = t.lambdas
  preferences_eq : s.preferences = t.preferences

/-- Takes a `>`, which may be the start of a longer token, if one comes next. -/
def Parser.closing? : Parser (Option Token) := do
  if ← splitGreater then return some (← advance) else return none

/-- Splitting a `>` off only to take it is the same as taking a closing angle. -/
theorem Parser.splitGreater_bind_eq {α : Type} (p : Token → Parser α) (q : Parser α) :
    (splitGreater >>= fun found => if found = true then advance >>= p else q) =
      closing? >>= fun token => token.elim q p := by
  simp only [closing?, bind_assoc]
  congr
  funext found
  cases found <;> simp

/-- The productions on a footing. They form a class, so that the derivation for a parser is
assembled from those of its parts. -/
class inductive Production : Footing → {α : Type} → Parser α → Prop
  | relax {α : Type} {m m' : Footing} {p : Parser α} (h : Production m p) (hm : m.Covers m') :
      Production m' p
  | pure {α : Type} (a : α) : Production .free (pure a)
  | throw {α : Type} {e : SyntaxError} (he : e.isLexical = false) :
      Production .looking (throw e : Parser α)
  | bind {α β : Type} {m : Footing} {p : Parser α} {f : α → Parser β} (hm : m ≠ .looking)
      (hp : Production m p) (hf : ∀ a, Production m (f a)) : Production m (p >>= f)
  /-- A production has looked if its first part has. -/
  | look {α β : Type} {p : Parser α} {f : α → Parser β} (hp : Production .looking p)
      (hf : ∀ a, Production .free (f a)) : Production .looking (p >>= f)
  | observe {α β : Type} {m : Footing} {g : ParserState → β} {f : β → Parser α}
      (hg : ∀ s t, s.SameFrame t → g s = g t) (hf : ∀ b, Production m (f b)) :
      Production m (get >>= fun s => f (g s))
  | peek (n : Nat) : Production .looking (peek n)
  | advance : Production .looking advance
  | closing? : Production .looking closing?
  | note (event : LogEvent) : Production .free (note event)
  | guarded {α : Type} {m : Footing} {p : Parser α} (context : String) (h : Production m p) :
      Production m (guarded context p)
  | withLambdas {α : Type} {m : Footing} {p : Parser α} (allowed : Bool) (h : Production m p) :
      Production m (withLambdas allowed p)
  /-- The position from which nodes are made. -/
  | start {α β : Type} {m : Footing} {p : Parser α} {f : Nat → α → Parser β}
      (hp : Production .looking p)
      (hf : ∀ n a, m.AtMost n → Production (.started n) (f n a)) :
      Production m (position >>= fun n => p >>= f n)
  /-- A position to go back to. -/
  | mark {α : Type} {m : Footing} {f : Nat → Parser α} (hm : m ≠ .looking)
      (hf : ∀ n, m.AtMost n → Production (.marked n) (f n)) : Production m (position >>= f)
  | restore (n : Nat) : Production (.marked n) (restore n)
  | goBack {α : Type} {n : Nat} {p : Parser α} (h : Production (.marked n) p) :
      Production (.marked n) (andThen (·.restorePosition n) p)
  | node {f : Form} {n start : Nat} (tree : Tree f) (h : start ≤ n) :
      Production (.started n) (node start tree)

/-- A footing on which nothing has to be looked at. -/
class Footing.Passive (m : Footing) : Prop where
  ne_looking : m ≠ .looking

instance : Footing.free.Passive := ⟨by rintro ⟨⟩⟩

instance (n : Nat) : (Footing.marked n).Passive := ⟨by rintro ⟨⟩⟩

instance (n : Nat) : (Footing.started n).Passive := ⟨by rintro ⟨⟩⟩

/-- An error that the grammar itself raises. -/
class SyntaxError.Grammatical (e : SyntaxError) : Prop where
  isLexical_eq : e.isLexical = false

namespace Production

variable {α β : Type} {m : Footing} {p q : Parser α} {f : α → Parser β}

/-! ### Elementary steps on any footing -/

/-- What only looks is a production on every footing. -/
theorem onAny (h : Production .looking p) : Production m p := h.relax trivial

/-- What owes nothing is a production on every passive footing. -/
theorem onPassive [m.Passive] (h : Production .free p) : Production m p :=
  h.relax Footing.Passive.ne_looking

instance [m.Passive] (a : α) : Production m (Pure.pure a : Parser α) :=
  (Production.pure a).onPassive

instance {e : SyntaxError} [he : e.Grammatical] : Production m (MonadExcept.throw e : Parser α) :=
  (Production.throw he.isLexical_eq).onAny

instance [hm : m.Passive] [hp : Production m p] [hf : ∀ a, Production m (f a)] :
    Production m (p >>= f) := .bind hm.ne_looking hp hf

instance [hp : Production .looking p] [hf : ∀ a, Production .free (f a)] :
    Production .looking (p >>= f) := .look hp hf

instance {c : Prop} [Decidable c] [Production m p] [Production m q] :
    Production m (if c then p else q) := by
  split <;> infer_instance

instance [h : Production m p] (g : α → β) : Production m (g <$> p) := by
  rw [map_eq_pure_bind]
  by_cases hm : m = .looking
  · subst hm
    exact .look h fun a => .pure _
  · exact .bind hm h fun a => (Production.pure _).relax hm

instance (n : Nat) : Production m (Parser.peek n) := (Production.peek n).onAny

instance : Production m Parser.advance := Production.advance.onAny

instance [m.Passive] (event : LogEvent) : Production m (Parser.note event) :=
  (Production.note event).onPassive

instance [h : Production m p] (context : String) : Production m (Parser.guarded context p) :=
  .guarded context h

instance [h : Production m p] (allowed : Bool) : Production m (Parser.withLambdas allowed p) :=
  .withLambdas allowed h

/-- Splitting a `>` off is part of taking it. -/
instance {p : Token → Parser α} [hp : ∀ t, Production .free (p t)] [hq : Production .free q] :
    Production m (splitGreater >>= fun found =>
      if found = true then Parser.advance >>= p else q) := by
  rw [Parser.splitGreater_bind_eq]
  refine (Production.look .closing? fun token => ?_).onAny
  cases token with
  | none => exact hq
  | some t => exact hp t

instance {p : Parser β} {f : Nat → β → Parser α} [hp : Production .looking p]
    [hf : ∀ n a, Production (.started n) (f n a)] :
    Production m (position >>= fun n => p >>= f n) := .start hp fun n a _ => hf n a

instance (n : Nat) : Production (.marked n) (Parser.restore n) := .restore n

instance (n : Nat) : Production (.started n) (Parser.restore n) :=
  (Production.restore n).relax (.inr rfl)

instance {f : Form} (n : Nat) (tree : Tree f) : Production (.started n) (Parser.node n tree) :=
  .node tree (Nat.le_refl n)

/-- A production may ask whether arrows start lambdas. -/
instance {b : Bool} [Production m p] [Production m q] :
    Production m (get >>= fun s => if (b && s.lambdas) = true then p else q) :=
  .observe (g := ParserState.lambdas) (f := fun allowed => if (b && allowed) = true then p else q)
    (fun _ _ h => h.lambdas_eq) inferInstance

/-- A production may ask how often a loop can go round. -/
theorem bound {f : Nat → Parser α} (hf : ∀ n, Production m (f n)) :
    Production m (get >>= fun s => f (loopBound s)) := by
  refine .observe (fun s t h => ?_) hf
  rw [loopBound, loopBound, h.text_eq]

end Production

namespace Parser

variable {α β : Type} {m : Footing} {p : Parser α}

/-! ### Looking, taking and demanding -/

instance (expected : String) (t : Token) : (SyntaxError.unexpected expected t).Grammatical where
  isLexical_eq := by
    unfold SyntaxError.unexpected
    split <;> rfl

instance (t : Token) : (SyntaxError.restricted t).Grammatical := ⟨rfl⟩

instance (rule : GrammarRule) (t : Token) : (SyntaxError.broken rule t).Grammatical := ⟨rfl⟩

instance (found : String) (span : Span) : (SyntaxError.tooDeep found span).Grammatical := ⟨rfl⟩

instance (n : Nat) : Production m (peekKind n) := by
  apply Production.onAny
  unfold peekKind
  infer_instance

instance : Production m currentKind := by
  apply Production.onAny
  unfold currentKind
  infer_instance

instance (kind : TokenKind) : Production m (check kind) := by
  apply Production.onAny
  unfold check
  infer_instance

instance (keyword : Keyword) : Production m (checkKeyword keyword) := by
  apply Production.onAny
  unfold checkKeyword
  infer_instance

instance (n : Nat) (word : String) : Production m (peekIsWord n word) := by
  apply Production.onAny
  unfold peekIsWord
  infer_instance

instance (word : String) : Production m (checkWord word) := by
  apply Production.onAny
  unfold checkWord
  infer_instance

instance (kind : TokenKind) : Production m (eat kind) := by
  apply Production.onAny
  unfold eat
  infer_instance

instance (keyword : Keyword) : Production m (eatKeyword keyword) := by
  apply Production.onAny
  unfold eatKeyword
  infer_instance

instance (word : String) : Production m (eatWord word) := by
  apply Production.onAny
  unfold eatWord
  infer_instance

instance (expected : String) : Production m (unexpected expected : Parser α) := by
  apply Production.onAny
  unfold unexpected
  infer_instance

instance (kind : TokenKind) : Production m (expect kind) := by
  apply Production.onAny
  unfold expect
  infer_instance

instance (keyword : Keyword) : Production m (expectKeyword keyword) := by
  apply Production.onAny
  unfold expectKeyword
  infer_instance

instance : Production m expectIdentifier := by
  apply Production.onAny
  unfold expectIdentifier
  infer_instance

instance : Production m expectTypeIdentifier := by
  apply Production.onAny
  unfold expectTypeIdentifier
  infer_instance

instance (word : String) : Production m (expectWord word) := by
  apply Production.onAny
  unfold expectWord
  infer_instance

instance : Production m expectEnd := by
  apply Production.onAny
  unfold expectEnd
  infer_instance

/-! ### Repetition -/

/-- A bounded loop of productions is a production. -/
theorem production_loopFor [m.Passive] {step : α → Parser (Step α β)}
    (h : ∀ a, Production m (step a)) (n : Nat) (a : α) : Production m (loopFor step n a) := by
  induction n generalizing a with
  | zero =>
    rw [loopFor]
    infer_instance
  | succ n ih =>
    refine .bind Footing.Passive.ne_looking (h a) fun outcome => ?_
    cases outcome with
    | again next => exact ih next
    | done result => infer_instance

/-- A loop has looked once its first step has. -/
theorem looking_loopFor {step : α → Parser (Step α β)} (h : ∀ a, Production .looking (step a))
    (n : Nat) (a : α) : Production .looking (loopFor step n a) := by
  cases n with
  | zero =>
    rw [loopFor]
    infer_instance
  | succ n =>
    refine .look (h a) fun outcome => ?_
    cases outcome with
    | again next => exact production_loopFor (fun a => (h a).onAny) n next
    | done result => infer_instance

instance [m.Passive] {step : α → Parser (Step α β)} [h : ∀ a, Production m (step a)] (a : α) :
    Production m (loop step a) :=
  Production.bound (f := fun n => loopFor step n a) fun n => production_loopFor h n a

/-- A loop of steps that only look is a production on every footing. -/
theorem looking_loop {step : α → Parser (Step α β)} (h : ∀ a, Production .looking (step a))
    (a : α) : Production m (loop step a) :=
  (Production.bound (f := fun n => loopFor step n a) fun n => looking_loopFor h n a).onAny

instance {step : α → Parser (Step α β)} [h : ∀ a, Production .looking (step a)] (a : α) :
    Production .looking (loop step a) := looking_loop h a

instance {condition : Parser Bool} {item : Parser α} [Production .looking condition]
    [Production .free item] : Production m (manyWhile condition item) := by
  apply looking_loop
  infer_instance

instance (kind : TokenKind) [Production .free p] : Production m (manyUntil kind p) := by
  unfold manyUntil
  infer_instance

instance {item : Parser (Option α)} [h : Production .looking item] : Production m (many item) := by
  refine looking_loop (fun items => .look h fun found => ?_) []
  cases found <;> infer_instance

instance (kind : TokenKind) [Production .looking p] : Production m (separatedBy kind p) := by
  apply looking_loop
  infer_instance

instance (kind : TokenKind) [Production .free p] : Production m (trailingCommas kind p) := by
  apply looking_loop
  infer_instance

instance (kind : TokenKind) [Production .free p] : Production m (after? kind p) := by
  apply Production.onAny
  unfold after?
  infer_instance

instance (kind : TokenKind) [Production .free p] : Production m (at? kind p) := by
  apply Production.onAny
  unfold at?
  infer_instance

end Parser

end JavaSyntax
