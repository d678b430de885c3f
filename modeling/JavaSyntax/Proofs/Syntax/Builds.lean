import JavaSyntax.Proofs.Syntax.Steps
import JavaSyntax.Proofs.Tree.Regular

/-!
# What productions build

Whether the nodes of a tree keep the rules is decided where they are made. So the statement about
a production is one about its results: if it succeeds, something holds of what it has built. Such
statements are put together along its definition. Inside a production one keeps the nodes that
may stand anywhere, since most nodes are made of such nodes only; what is known about a result
apart from that is handed on beside them.
-/

namespace JavaSyntax

open Work JavaSyntax.Parser

/-! ### Results -/

section Results

variable {α : Type} [Bears α]

/-- All nodes in a result may stand anywhere. -/
def Fine (a : α) : Prop := ∀ q ∈ Part.join (pieces a), q.Plain

/-- A node that is made of what may stand anywhere may stand there itself. -/
theorem Fine.plain {f : Form} {a : Node f} (h : Fine a) : Part.Plain ⟨f, a⟩ := by
  refine h _ ?_
  change ⟨f, a⟩ ∈ a.parts
  rw [Tree.parts_node]
  exact List.mem_singleton_self _

/-- What may stand anywhere is fine. -/
theorem Fine.of_plain {f : Form} {a : Node f} (h : Part.Plain ⟨f, a⟩) : Fine a :=
  fun q hq => Tree.forall_mem_parts_node h q hq

/-- What is known about a result is enough for its nodes to stand anywhere. -/
class Enough (Q : α → Prop) : Prop where
  fine : ∀ a, Q a → Fine a

instance : Enough (Fine : α → Prop) := ⟨fun _ h => h⟩

instance {R : α → Prop} : Enough fun a => Fine a ∧ R a := ⟨fun _ h => h.1⟩

/-- There are no nodes in a plain result. -/
instance {α : Type} {Q : α → Prop} : @Enough α plain Q := ⟨fun _ _ => nofun⟩

variable {R : α → Prop}

section Lists

variable [Bears (List α)] [Listed α]

/-- Results in a list are fine if each of them is. -/
theorem fine_of_forall_mem {l : List α} (h : ∀ a ∈ l, Fine a) : Fine l := by
  intro q hq
  rw [Listed.join_eq_flatMap, List.mem_flatMap] at hq
  obtain ⟨a, ha, hq⟩ := hq
  exact h a ha q hq

instance [hR : Enough R] : Enough fun l : List α => ∀ a ∈ l, R a :=
  ⟨fun _ h => fine_of_forall_mem fun a ha => hR.fine a (h a ha)⟩

instance [hR : Enough R] : Enough fun l : List α => l ≠ [] ∧ ∀ a ∈ l, R a :=
  ⟨fun _ h => fine_of_forall_mem fun a ha => hR.fine a (h.2 a ha)⟩

end Lists

instance [Bears (Option α)] [ho : Optioned α] [hR : Enough R] :
    Enough fun o : Option α => ∀ a ∈ o, R a where
  fine o h q hq := by
    cases o with
    | none =>
      rw [ho.join_none] at hq
      cases hq
    | some a =>
      rw [ho.join_some] at hq
      exact hR.fine a (h a rfl) q hq

end Results

/-! ### The current token -/

/-- A cursor that stands at a token which was looked at. -/
def Cursor.At (c : Cursor) (t : Token) : Prop := c.buffer[c.position]? = some t

namespace Parser

variable {x : Tokenized} {s s' : ParserState} {t : Token}

/-- Where a token was looked at, the cursor stands at it. -/
theorem at_of_peek (hs : s.cursor.On x) (hrun : peek 0 s = (.ok t, s')) :
    s'.cursor.On x ∧ s.cursor.position ≤ s'.cursor.position ∧ s'.cursor.At t := by
  have hpeek := peek_eq_ok hrun
  obtain ⟨⟨hcourse, -⟩, -⟩ := hs.settled.peekAhead 0
  rw [hpeek] at hcourse
  exact ⟨hcourse.on hs, hcourse.le_position, hs.settled.getElem?_current hpeek⟩

end Parser

namespace Cursor.At

variable {s s' : ParserState} {t : Token}

/-- A token that was looked at is seen again. -/
theorem peek_apply (h : s.cursor.At t) : Parser.peek 0 s = (.ok t, s) := by
  rw [Parser.peek, read_apply, peekAhead_zero h]
  rfl

/-- The kind of a token that was looked at is known. -/
theorem currentKind_apply (h : s.cursor.At t) : Parser.currentKind s = (.ok t.kind, s) := by
  rw [Parser.currentKind, Parser.peekKind, bind_apply, h.peek_apply]
  rfl

/-- A check of a token that was looked at is decided. -/
theorem check_apply (h : s.cursor.At t) (kind : TokenKind) :
    Parser.check kind s = (.ok (t.kind == kind), s) := by
  rw [Parser.check, bind_apply, h.currentKind_apply]
  rfl

/-- A token that was looked at can be passed. -/
theorem advance_apply (h : s.cursor.At t) :
    Parser.advance s = (.ok t, { s with cursor := s.cursor.pastToken t }) := by
  rw [Parser.advance, read_apply, Cursor.advance_apply, peekAhead_zero h]
  rfl

/-- An identifier that is read is the current token. -/
theorem of_expectIdentifier (h : s.cursor.At t) {name : String}
    (hrun : Parser.expectIdentifier s = (.ok name, s')) :
    t.kind = .identifier ∧ name = t.source := by
  rw [Parser.expectIdentifier, bind_apply, h.check_apply] at hrun
  dsimp only at hrun
  split at hrun
  · rename_i hkind
    rw [bind_apply, h.advance_apply] at hrun
    cases hrun
    exact ⟨eq_of_beq hkind, rfl⟩
  · exact absurd (congrArg Prod.fst hrun) (unexpected_ne_ok _ _ _)

end Cursor.At

namespace Parser

variable {α : Type} {p : Parser α} {s s' : ParserState} {a : α} {context : String}

/-- To open a production only notes something down. -/
theorem cursor_entered (context : String) (s : ParserState) :
    (entered context s).cursor =
      { s.cursor with journal := (entered context s).cursor.journal } :=
  (pushContext_eq context { s with depth := s.depth + 1 }).1

/-- What succeeds inside its guard succeeds without. -/
theorem ok_of_guarded (h : guarded context p s = (.ok a, s')) :
    ∃ s₁, p (entered context s) = (.ok a, s₁) ∧ s'.cursor = s₁.cursor := by
  rw [guarded_apply] at h
  split at h
  · rcases hpeek : peek 0 s with ⟨_ | t, s₁⟩ <;> rw [hpeek] at h <;> cases h
  rcases hok : p (entered context s) with ⟨r, s₁⟩
  rw [hok] at h
  cases h
  exact ⟨s₁, rfl, rfl⟩

end Parser

/-! ### Productions and their parts -/

/-- If a production succeeds, something holds of its result. -/
class Makes {α : Type} (x : Tokenized) (p : Parser α) (Q : outParam (α → Prop)) : Prop where
  run : ∀ {s s' : ParserState} {a : α}, s.cursor.On x → p s = (.ok a, s') →
    s'.cursor.On x ∧ s.cursor.position ≤ s'.cursor.position ∧ Q a

/-- The rest of a production that may go back to a position, given nodes that may stand
anywhere. -/
structure Builds {α : Type} (x : Tokenized) (n : Nat) (given : List (List Part)) (p : Parser α)
    (Q : α → Prop) : Prop where
  run : ∀ {s s' : ParserState} {a : α}, s.cursor.On x → n ≤ s.cursor.position →
    (∀ q ∈ Part.join given, q.Plain) → p s = (.ok a, s') →
    s'.cursor.On x ∧ n ≤ s'.cursor.position ∧ Q a

/-- Nodes that are all among the given ones. -/
def Given (given : List (List Part)) (parts : List Part) : Prop :=
  ∀ q ∈ parts, q ∈ Part.join given

/-- All given nodes are given. -/
theorem Given.all {given : List (List Part)} : Given given (Part.join given) := fun _ hq => hq

/-- A step of a loop goes on with what keeps an invariant, or ends with a result. -/
@[simp] def Parser.Step.Keeps {α β : Type} (I : α → Prop) (R : β → Prop) : Step α β → Prop
  | .again a => I a
  | .done b => R b

variable {x : Tokenized}

namespace Makes

variable {α : Type} {p : Parser α} {Q R : α → Prop}

/-- A production that remembers where it starts. -/
theorem start {f : Nat → Parser α} (h : ∀ n, Builds x n [] (f n) Q) :
    Makes x (position >>= f) Q where
  run hs hrun := (h _).run hs (Nat.le_refl _) nofun hrun

/-- A production builds what it does from wherever it starts. -/
theorem free (h : ∀ n, Builds x n [] p Q) : Makes x p Q where
  run hs hrun := (h _).run hs (Nat.le_refl _) nofun hrun

/-- What follows from what a result is known for holds of it as well. -/
theorem mono (h : Makes x p Q) (hQ : ∀ a, Q a → R a) : Makes x p R where
  run hs hrun := by
    obtain ⟨hs', hle, ha⟩ := h.run hs hrun
    exact ⟨hs', hle, hQ _ ha⟩

/-- What is known about a result may include that its nodes are fine. -/
theorem fine [Bears α] [hQ : Enough Q] (h : Makes x p Q) : Makes x p Fine := h.mono hQ.fine

/-- Where a production ends is known from what it yields. -/
theorem of_yields [Bears α] {effect : α → Effect} [hp : Yields x p effect]
    (h : ∀ {s s' : ParserState} {a : α}, s.cursor.On x → p s = (.ok a, s') → Q a) :
    Makes x p Q where
  run hs hrun := by
    obtain ⟨ts, hstretch⟩ := hp.run hs hrun
    exact ⟨hstretch.on hs, hstretch.course.le_position, h hs hrun⟩

/-- Nothing has to be known about a result in which there are no nodes. -/
instance (priority := low) [Bears α] {effect : α → Effect} [hp : Yields x p effect] :
    Makes x p fun _ => True := of_yields fun _ _ => trivial

end Makes

namespace Builds

variable {α β : Type} {n : Nat} {G H : List (List Part)} {p : Parser α} {f : α → Parser β}
  {Q Q' : α → Prop} {R : β → Prop}

/-- What was built by a part that may use the given nodes is known to the rest. -/
theorem bind (hp : Builds x n G p Q) (hf : ∀ a, Q a → Builds x n G (f a) R) :
    Builds x n G (p >>= f) R where
  run hs hn hG hrun := by
    obtain ⟨a, s₁, hok, hrest⟩ := bind_eq_ok hrun
    obtain ⟨hs₁, hn₁, ha⟩ := hp.run hs hn hG hok
    exact (hf a ha).run hs₁ hn₁ hG hrest

/-- A production that makes something may stand anywhere in another one. -/
theorem of_makes [hp : Makes x p Q] : Builds x n G p Q where
  run hs hn _ hrun := by
    obtain ⟨hs', hle, ha⟩ := hp.run hs hrun
    exact ⟨hs', Nat.le_trans hn hle, ha⟩

/-- What follows from what a result is known for holds of it as well. -/
theorem mono (h : Builds x n G p Q') (hQ : ∀ a, Q' a → Q a) : Builds x n G p Q where
  run hs hn hG hrun := by
    obtain ⟨hs', hn', ha⟩ := h.run hs hn hG hrun
    exact ⟨hs', hn', hQ _ ha⟩

/-- What is left uses some of the given nodes. -/
theorem weaken (h : Builds x n H p Q) (hsub : Given G (Part.join H)) : Builds x n G p Q where
  run hs hn hG hrun := h.run hs hn (fun q hq => hG q (hsub q hq)) hrun

/-- What is left uses none of the given nodes. -/
theorem forget (h : Builds x n [] p Q) : Builds x n G p Q := h.weaken nofun

/-- The given nodes may stand anywhere. -/
theorem known (h : (∀ q ∈ Part.join G, q.Plain) → Builds x n G p Q) : Builds x n G p Q where
  run hs hn hG hrun := (h hG).run hs hn hG hrun

/-- More nodes are given. -/
theorem add [Bears β] {b : β} (hb : Fine b) (h : Builds x n (G ++ pieces b) p Q) :
    Builds x n G p Q where
  run hs hn hG hrun := by
    refine h.run hs hn ?_ hrun
    intro q hq
    rw [Part.join_append, List.mem_append] at hq
    exact hq.elim (hG q) (hb q)

/-! ### Steps -/

/-- The next step builds something, of which the rest has to know more. -/
theorem keep [Makes x p Q] (hf : ∀ a, Q a → Builds x n G (f a) R) : Builds x n G (p >>= f) R :=
  bind of_makes hf

/-- The nodes of the next step are given to the rest, which has to know more of them. -/
theorem seqWith [Bears α] [hQ : Enough Q] [Makes x p Q]
    (hf : ∀ a, Q a → Builds x n (G ++ pieces a) (f a) R) : Builds x n G (p >>= f) R :=
  keep fun a ha => add (hQ.fine a ha) (hf a ha)

/-- The nodes of the next step are given to the rest. -/
theorem seq [Bears α] [Enough Q] [Makes x p Q] (hf : ∀ a, Builds x n (G ++ pieces a) (f a) R) :
    Builds x n G (p >>= f) R := seqWith fun a _ => hf a

/-- The next step uses up the given nodes, and its own are given to the rest. -/
theorem chain [Bears α] [hQ : Enough Q] (hp : Builds x n G p Q)
    (hf : ∀ a, Builds x n (pieces a) (f a) R) : Builds x n G (p >>= f) R :=
  bind hp fun a ha => forget (add (hQ.fine a ha) (hf a))

/-- The next step answers a question. -/
theorem ask {c : Parser Bool} {q r : Parser β} {ask : Bool → Prop} [Makes x c ask]
    (hyes : Builds x n G q R) (hno : Builds x n G r R) :
    Builds x n G (c >>= fun answer => if answer = true then q else r) R := by
  refine keep fun answer _ => ?_
  cases answer with
  | false => exact hno
  | true => exact hyes

/-- A question may be answered with "no" first. -/
theorem askNot {c : Parser Bool} {q r : Parser β} {ask : Bool → Prop} [Makes x c ask]
    (hno : Builds x n G q R) (hyes : Builds x n G r R) :
    Builds x n G (c >>= fun answer => if (!answer) = true then q else r) R := by
  refine keep fun answer _ => ?_
  cases answer with
  | false => exact hno
  | true => exact hyes

/-- What is left depends on a condition. -/
theorem cases {c : Prop} [Decidable c] {q : Parser α} (hp : c → Builds x n G p Q)
    (hq : ¬ c → Builds x n G q Q) : Builds x n G (if c then p else q) Q := by
  split
  · exact hp ‹_›
  · exact hq ‹_›

/-- Nothing is left to show of what cannot succeed. -/
theorem fail {e : SyntaxError} : Builds x n G (throw e : Parser α) Q where
  run _ _ _ hrun := by cases hrun

/-- What fails builds nothing. -/
theorem refuse {expected : String} : Builds x n G (unexpected expected : Parser α) Q where
  run _ _ _ hrun := absurd (congrArg Prod.fst hrun) (unexpected_ne_ok _ _ _)

/-- The last step builds a result that is fine. -/
theorem deliver [Bears α] [hQ : Enough Q] [Makes x p Q] : Builds x n G p Fine :=
  of_makes.mono hQ.fine

/-- A result is made of what is given. -/
theorem pure {a : α} (h : (∀ q ∈ Part.join G, q.Plain) → Q a) : Builds x n G (Pure.pure a) Q where
  run hs hn hG hrun := by
    cases hrun
    exact ⟨hs, hn, h hG⟩

/-- Something that was found is made of what is given. -/
theorem found {a : α} (h : (∀ q ∈ Part.join G, q.Plain) → Q a) :
    Builds x n G (Pure.pure (some a)) fun o => ∀ b ∈ o, Q b := by
  refine pure fun hG => ?_
  rintro _ ⟨⟩
  exact h hG

/-- Where nothing was found there is nothing to say. -/
theorem notFound : Builds x n G (Pure.pure none) fun o : Option α => ∀ b ∈ o, Q b := by
  refine pure fun _ => ?_
  rintro _ ⟨⟩

/-- The result has no other nodes than the given ones. -/
theorem fine [Bears α] {a : α} (hparts : Given G (Part.join (pieces a))) :
    Builds x n G (Pure.pure a) Fine :=
  pure fun hG q hq => hG q (hparts q hq)

/-! ### Nodes -/

section Nodes

variable {f : Form} {tree : Tree f} {start : Nat}

/-- An ordinary tree is made of the given nodes. -/
theorem ready (h : tree.isOrdinary = true) (hparts : Given G tree.parts)
    (hwellFormed : tree.WellFormed) : Builds x n G (Pure.pure tree) Tree.Ready :=
  pure fun hG => .of_isOrdinary h (fun q hq => hG q (hparts q hq)) hwellFormed

/-- A declaration is made of the given nodes, and its name is one for types. -/
theorem declares {name : String} (h : tree.declaredType? = some name)
    (hname : isRestrictedTypeName name = false) (hparts : Given G tree.parts)
    (hwellFormed : tree.WellFormed) : Builds x n G (Pure.pure tree) Tree.Ready :=
  pure fun hG => .of_declaredType? h hname (fun q hq => hG q (hparts q hq)) hwellFormed

/-- A node is made of a tree that is ready for it. -/
theorem nodeKept (h : (∀ q ∈ Part.join G, q.Plain) → tree.Ready) :
    Builds x n G (Parser.node start tree) fun a => Part.Kept ⟨f, a⟩ ∧ a.inner = tree where
  run hs hn hG hrun := by
    cases hrun
    exact ⟨hs, hn, (h hG).kept, rfl⟩

/-- A node is known for the tree that is in it. -/
theorem nodeInner (h : (∀ q ∈ Part.join G, q.Plain) → tree.Ready)
    (hconfined : tree.isConfined = false) :
    Builds x n G (Parser.node start tree) fun a => Fine a ∧ a.inner = tree := by
  refine (nodeKept h).mono fun a ⟨hkept, hinner⟩ => ⟨.of_plain ?_, hinner⟩
  refine hkept.plain ?_
  change a.inner.isConfined = false
  rw [hinner]
  exact hconfined

/-- A node may stand anywhere if its tree is ready for that. -/
theorem nodeOf (h : (∀ q ∈ Part.join G, q.Plain) → tree.Ready)
    (hconfined : tree.isConfined = false) : Builds x n G (Parser.node start tree) Fine :=
  (nodeInner h hconfined).mono fun _ => And.left

/-- A node is made of a tree with a child that may stand nowhere else. -/
theorem nodeRegular (h : tree.Regular) (hchildren : ∀ q ∈ tree.parts, q.Kept)
    (hconfined : tree.isConfined = false) : Builds x n G (Parser.node start tree) Fine where
  run hs hn _ hrun := by
    cases hrun
    exact ⟨hs, hn, .of_plain ((h.kept hchildren).plain hconfined)⟩

/-- A node is made of an ordinary tree with the given nodes. -/
theorem node (h : tree.isOrdinary = true) (hparts : Given G tree.parts)
    (hwellFormed : tree.WellFormed) : Builds x n G (Parser.node start tree) Fine :=
  nodeOf (fun hG => .of_isOrdinary h (fun q hq => hG q (hparts q hq)) hwellFormed)
    (Tree.of_isOrdinary h).2.2.2

end Nodes

/-! ### Names -/

/-- The name that is read is that of the token that was looked at. -/
theorem identifier {f : Token → String → Parser β} (hf : ∀ t, Builds x n G (f t t.source) R) :
    Builds x n G (peek 0 >>= fun t => expectIdentifier >>= f t) R where
  run hs hn hG hrun := by
    obtain ⟨t, s₁, hpeek, hrest⟩ := bind_eq_ok hrun
    obtain ⟨hs₁, hle₁, hat⟩ := at_of_peek hs hpeek
    obtain ⟨name, s₂, hname, hrest⟩ := bind_eq_ok hrest
    obtain ⟨hs₂, hle₂, -⟩ := Makes.run hs₁ hname
    obtain ⟨-, rfl⟩ := hat.of_expectIdentifier hname
    exact (hf t).run hs₂ (Nat.le_trans hn (Nat.le_trans hle₁ hle₂)) hG hrest

/-! ### Positions and state -/

/-- What is left remembers where it starts. -/
theorem start {f : Nat → Parser α} (hf : ∀ m, Builds x m G (f m) Q) :
    Builds x n G (position >>= f) Q where
  run hs hn hG hrun := by
    obtain ⟨hs', hle, ha⟩ := (hf _).run hs (Nat.le_refl _) hG hrun
    exact ⟨hs', Nat.le_trans hn hle, ha⟩

/-- The parse goes back to a position. -/
theorem goBack {f : Unit → Parser α} (hf : Builds x n G (f ()) Q) :
    Builds x n G (restore n >>= f) Q where
  run {s s' a} hs hn hG hrun := by
    have hcourse := (Cursor.Course.refl hs.settled hn).restore (Nat.le_refl n) hn
    exact hf.run (s := s.restorePosition n) (hcourse.on hs) (Nat.le_refl n) hG hrun

/-- A look at the state builds nothing. -/
theorem observe {f : ParserState → Parser α} (hf : ∀ s, Builds x n G (f s) Q) :
    Builds x n G (get >>= f) Q where
  run hs hn hG hrun := (hf _).run hs hn hG hrun

/-- The rule for arrows does not matter to what is built. -/
theorem withLambdas {allowed : Bool} (h : Builds x n G p Q) :
    Builds x n G (Parser.withLambdas allowed p) Q where
  run {s s' a} hs hn hG hrun := by
    rw [withLambdas_apply] at hrun
    rcases hok : p { s with lambdas := allowed } with ⟨r, s₁⟩
    rw [hok] at hrun
    cases hrun
    obtain ⟨hs₁, hn₁, ha⟩ := h.run (s := { s with lambdas := allowed }) hs hn hG hok
    exact ⟨hs₁, hn₁, ha⟩

/-- Counting the depth does not matter to what is built. -/
theorem guarded (h : Builds x n G p Q) (context : String) :
    Builds x n G (Parser.guarded context p) Q where
  run {s s' a} hs hn hG hrun := by
    obtain ⟨s₁, hok, hs'⟩ := ok_of_guarded hrun
    have hentered : (entered context s).cursor.On x := by
      rw [cursor_entered]
      exact hs.withJournal _
    have hn' : n ≤ (entered context s).cursor.position := by
      rw [cursor_entered]
      exact hn
    rw [hs']
    exact h.run hentered hn' hG hok

/-- A `>` is taken, which may be the start of a longer token. -/
theorem closing {p : Token → Parser α} {q : Parser α} (hp : ∀ t, Builds x n G (p t) Q)
    (hq : Builds x n G q Q) :
    Builds x n G (splitGreater >>= fun found =>
      if found = true then Parser.advance >>= p else q) Q where
  run {s s' a} hs hn hG hrun := by
    rw [splitGreater_bind_eq] at hrun
    obtain ⟨found, s₁, hok, hrest⟩ := bind_eq_ok hrun
    have hcourse := (Production.closing?.runs hs.settled trivial).course
    rw [hok] at hcourse
    have hn₁ := Nat.le_trans hn hcourse.le_position
    cases found with
    | none => exact hq.run (hcourse.on hs) hn₁ hG hrest
    | some t => exact (hp t).run (hcourse.on hs) hn₁ hG hrest

/-- A loop whose steps keep an invariant of what was built so far. -/
theorem loop {step : α → Parser (Step α β)} (I : α → Prop) {a : α} (ha : I a)
    (hstep : ∀ a, I a → Builds x n G (step a) (Step.Keeps I R)) :
    Builds x n G (Parser.loop step a) R where
  run {s s' b} hs hn hG hrun := by
    change loopFor step (loopBound s) a s = _ at hrun
    generalize loopBound s = bound at hrun
    induction bound generalizing s a with
    | zero => exact absurd (congrArg Prod.fst hrun) (unexpected_ne_ok _ _ _)
    | succ bound ih =>
      obtain ⟨outcome, s₁, hok, hrest⟩ := bind_eq_ok hrun
      obtain ⟨hs₁, hn₁, hnext⟩ := (hstep a ha).run hs hn hG hok
      cases outcome with
      | again a => exact ih hnext hs₁ hn₁ hrest
      | done b =>
        cases hrest
        exact ⟨hs₁, hn₁, hnext⟩

end Builds

namespace Parser

variable {α : Type} {p item : Parser α} {Q R : α → Prop}

instance [Makes x p Q] (allowed : Bool) : Makes x (withLambdas allowed p) Q :=
  .free fun _ => .withLambdas .of_makes

instance [Makes x p Q] (context : String) : Makes x (guarded context p) Q :=
  .free fun _ => .guarded .of_makes context

/-! ### Repetition -/

instance {condition : Parser Bool} {ask : Bool → Prop} [Makes x condition ask] [Makes x item R] :
    Makes x (manyWhile condition item) fun l => ∀ a ∈ l, R a := by
  refine .free fun _ => .loop (fun items => ∀ a ∈ items, R a) (by simp) fun items hitems =>
    .ask (.keep fun a ha => .pure fun _ => ?_) (.pure fun _ => ?_)
  · exact List.forall_mem_cons.mpr ⟨ha, hitems⟩
  · simpa using hitems

/-- The rounds of a repetition: the states in which it asks whether to go on, and what it reads
in between. -/
inductive Rounds (condition : Parser Bool) (item : Parser α) :
    ParserState → List α → ParserState → Prop
  | done {s s' : ParserState} (h : condition s = (.ok false, s')) : Rounds condition item s [] s'
  | more {s s₁ s₂ s' : ParserState} {a : α} {as : List α} (h : condition s = (.ok true, s₁))
      (hitem : item s₁ = (.ok a, s₂)) (hrest : Rounds condition item s₂ as s') :
      Rounds condition item s (a :: as) s'

/-- Items that were read have been read in rounds. -/
theorem rounds_of_manyWhile {condition : Parser Bool} {s s' : ParserState} {items : List α}
    (h : manyWhile condition item s = (.ok items, s')) : Rounds condition item s items s' := by
  have hfor (bound : Nat) : ∀ (before : List α) (s : ParserState),
      loopFor (fun items => do
        if ← condition then return .again ((← item) :: items) else return .done items.reverse)
        bound before s = (.ok items, s') →
      ∃ rest, items = before.reverse ++ rest ∧ Rounds condition item s rest s' := by
    induction bound with
    | zero => exact fun _ _ h => absurd (congrArg Prod.fst h) (unexpected_ne_ok _ _ _)
    | succ bound ih =>
      intro before s h
      obtain ⟨outcome, s₁, hstep, hrest⟩ := bind_eq_ok h
      obtain ⟨goesOn, s₂, hcondition, hstep⟩ := bind_eq_ok hstep
      cases goesOn with
      | false =>
        cases hstep
        cases hrest
        exact ⟨[], (List.append_nil _).symm, .done hcondition⟩
      | true =>
        obtain ⟨a, s₃, hitem, hstep⟩ := bind_eq_ok hstep
        cases hstep
        obtain ⟨rest, hitems, hrounds⟩ := ih _ _ hrest
        refine ⟨a :: rest, ?_, .more hcondition hitem hrounds⟩
        rw [hitems, List.reverse_cons, List.append_assoc]
        rfl
  obtain ⟨rest, hitems, hrounds⟩ := hfor _ [] s h
  rw [hitems]
  exact hrounds

/-- A repetition ends where its condition does not hold. -/
theorem Rounds.exists_end {condition : Parser Bool} {ask : Bool → Prop} [Makes x condition ask]
    [Makes x item R] {s s' : ParserState} {items : List α} (hs : s.cursor.On x)
    (h : Rounds condition item s items s') :
    ∃ s₀ : ParserState, s₀.cursor.On x ∧ condition s₀ = (.ok false, s') ∧ (items = [] → s₀ = s) := by
  induction h with
  | done h => exact ⟨_, hs, h, fun _ => rfl⟩
  | more h hitem _ ih =>
    obtain ⟨hs₁, -, -⟩ := Makes.run hs h
    obtain ⟨hs₂, -, -⟩ := Makes.run hs₁ hitem
    obtain ⟨s₀, hs₀, hend, -⟩ := ih hs₂
    exact ⟨s₀, hs₀, hend, nofun⟩

instance (kind : TokenKind) [Makes x item R] :
    Makes x (manyUntil kind item) fun l => ∀ a ∈ l, R a := by
  unfold manyUntil
  have hcheck : Makes x (return !(← check kind) : Parser Bool) fun _ => True :=
    .free fun _ => .keep fun _ _ => .pure fun _ => trivial
  infer_instance

instance {item : Parser (Option α)} {R : α → Prop} [Makes x item fun o => ∀ a ∈ o, R a] :
    Makes x (many item) fun l => ∀ a ∈ l, R a := by
  refine .free fun _ => .loop (fun items => ∀ a ∈ items, R a) (by simp) fun items hitems =>
    .keep fun found hfound => ?_
  cases found with
  | none =>
    refine .pure fun _ => ?_
    simpa using hitems
  | some a => exact .pure fun _ => List.forall_mem_cons.mpr ⟨hfound a rfl, hitems⟩

instance (kind : TokenKind) [Makes x item R] :
    Makes x (separatedBy kind item) fun l => l ≠ [] ∧ ∀ a ∈ l, R a := by
  refine .free fun _ => .loop (fun items => ∀ a ∈ items, R a) (by simp) fun items hitems =>
    .keep fun a ha => ?_
  have hmore : ∀ b ∈ a :: items, R b := List.forall_mem_cons.mpr ⟨ha, hitems⟩
  refine .ask (.pure fun _ => hmore) (.pure fun _ => ⟨by simp, ?_⟩)
  intro b hb
  exact hmore b (List.mem_reverse.mp hb)

instance (kind : TokenKind) [Makes x item R] :
    Makes x (trailingCommas kind item) fun l => ∀ a ∈ l, R a := by
  refine .free fun _ => .loop (fun items => ∀ a ∈ items, R a) (by simp) fun items hitems =>
    .ask (.pure fun _ => ?_) (.keep fun a ha => ?_)
  · simpa using hitems
  have hmore : ∀ b ∈ a :: items, R b := List.forall_mem_cons.mpr ⟨ha, hitems⟩
  refine .ask (.pure fun _ => hmore) (.pure fun _ => ?_)
  intro b hb
  exact hmore b (List.mem_reverse.mp hb)

instance (kind : TokenKind) [Makes x item R] :
    Makes x (at? kind item) fun o => ∀ a ∈ o, R a :=
  .free fun _ => .ask (.keep fun _ ha => .found fun _ => ha) .notFound

instance (kind : TokenKind) [Makes x item R] :
    Makes x (after? kind item) fun o => ∀ a ∈ o, R a :=
  .free fun _ => .ask (.keep fun _ ha => .found fun _ => ha) .notFound

end Parser

end JavaSyntax
