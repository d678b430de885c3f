import JavaSyntax.Proofs.Syntax.Balance
import JavaSyntax.Proofs.Syntax.Progress
import JavaSyntax.Proofs.Token.Groups

/-!
# How productions nest

A production that succeeds closes every bracket that it opens. This is found for a production from
its parts, by counting the groups that are open between them, and the same count finds the arrows:
where arrows start no lambdas, none is passed outside all groups that the production opens. Some
productions take tokens that were looked at before, so it is part of what is said about them which
kinds come next.
-/

set_option synthInstance.maxSize 4096

namespace JavaSyntax

open Work JavaSyntax.Parser

/-! ### Kinds that come next -/

namespace Cursor

variable {c c' : Cursor} {k : TokenKind} {ks : List TokenKind} {t : Token} {o : Option LexError}

/-- The tokens from the position on that have been read start with some kinds. -/
def Sees (c : Cursor) (ks : List TokenKind) : Prop :=
  ks <+: (c.buffer.toList.drop c.position).map (·.kind)

/-- Nothing is said about what comes next. -/
theorem Sees.nil (c : Cursor) : c.Sees [] := List.nil_prefix

/-- The current token comes before those behind it. -/
theorem sees_cons (ht : c.buffer[c.position]? = some t)
    (h : ks <+: (c.buffer.toList.drop (c.position + 1)).map (·.kind)) : c.Sees (t.kind :: ks) := by
  rw [← Array.getElem?_toList] at ht
  obtain ⟨hlt, rfl⟩ := List.getElem?_eq_some_iff.mp ht
  rw [Sees, List.drop_eq_getElem_cons hlt, List.map_cons, List.cons_prefix_cons]
  exact ⟨rfl, h⟩

/-- The kind of the current token comes next. -/
theorem sees_of_getElem? (ht : c.buffer[c.position]? = some t) : c.Sees [t.kind] :=
  sees_cons ht List.nil_prefix

/-- What comes next starts with the current token. -/
theorem Sees.exists_token (h : c.Sees (k :: ks)) :
    ∃ t, c.buffer[c.position]? = some t ∧ t.kind = k ∧
      ks <+: (c.buffer.toList.drop (c.position + 1)).map (·.kind) := by
  have hlt : c.position < c.buffer.toList.length := by
    have hle := h.length_le
    simp only [List.length_cons, List.length_map, List.length_drop] at hle
    omega
  rw [Sees, List.drop_eq_getElem_cons hlt, List.map_cons, List.cons_prefix_cons] at h
  refine ⟨c.buffer.toList[c.position], ?_, h.1.symm, h.2⟩
  rw [← Array.getElem?_toList]
  exact List.getElem?_eq_getElem hlt

/-- One more token is seen behind the others. -/
theorem Sees.concat (h : c.Sees ks) (ht : c.buffer[c.position + ks.length]? = some t) :
    c.Sees (ks ++ [t.kind]) := by
  obtain ⟨rest, hrest⟩ := h
  rw [← Array.getElem?_toList, ← List.getElem?_drop] at ht
  have hnext : rest[0]? = some t.kind := by
    have hkind := congrArg (Option.map (·.kind)) ht
    rw [← List.getElem?_map, ← hrest, List.getElem?_append_right (Nat.le_refl _),
      Nat.sub_self] at hkind
    exact hkind
  cases rest with
  | nil => cases hnext
  | cons k rest =>
    cases hnext
    exact ⟨rest, by rw [← hrest, List.append_assoc]; rfl⟩

/-- What comes next stays what it is while the cursor comes back to its position. -/
theorem Sees.course (h : c.Sees ks) (hc : c.Settled) (hcourse : Course c.position c o c')
    (hposition : c'.position = c.position) : c'.Sees ks := by
  obtain ⟨more, hmore⟩ := hcourse.isPrefix_buffer hc hposition
  have hle : c.position ≤ c.buffer.toList.length := by
    rw [Array.length_toList]
    exact hc.position_le
  rw [Sees, hposition, ← hmore, List.drop_append_of_le_length hle, List.map_append]
  exact h.trans (List.prefix_append _ _)

/-! ### Passages -/

/-- A course over which some tokens are passed, and the numbers of groups that are open before and
behind them. -/
structure Passage (watched : Bool) (depth : Nat) (c : Cursor) (d : Nat) (c' : Cursor) : Prop where
  course : Course c.position c none c'
  nest_eq : ∃ ts, c'.passed = c.passed ++ ts ∧ nest watched depth (ts.map (·.kind)) = some d

namespace Passage

variable {watched watched' : Bool} {depth d e : Nat} {c'' : Cursor}

/-- Nothing is passed by a cursor that comes back to its position. -/
theorem stay (hc : c.Settled) (hcourse : Course c.position c none c')
    (hposition : c'.position = c.position) : Passage watched depth c depth c' := by
  obtain ⟨ts, hts⟩ := hcourse.exists_passed hc
  have hlength := congrArg List.length hts
  rw [List.length_append, hc.length_passed, hcourse.settled.length_passed] at hlength
  obtain rfl : ts = [] := List.eq_nil_of_length_eq_zero (by omega)
  exact ⟨hcourse, [], hts, rfl⟩

/-- A cursor that stays has passed nothing. -/
theorem refl (hc : c.Settled) : Passage watched depth c depth c :=
  stay hc (.refl hc (Nat.le_refl _)) rfl

/-- Passages may follow each other. -/
theorem trans (hc : c.Settled) (h : Passage watched depth c d c')
    (h' : Passage watched d c' e c'') : Passage watched depth c e c'' := by
  obtain ⟨ts, hts, hnest⟩ := h.nest_eq
  obtain ⟨us, hus, hnest'⟩ := h'.nest_eq
  refine ⟨h.course.trans hc h'.course h.course.le_position, ts ++ us, ?_, ?_⟩
  · rw [hus, hts, List.append_assoc]
  · rw [List.map_append, nest_append, hnest]
    exact hnest'

/-- Arrows need not be watched. -/
theorem unwatched (h : Passage watched depth c d c') : Passage false depth c d c' := by
  obtain ⟨ts, hts, hnest⟩ := h.nest_eq
  exact ⟨h.course, ts, hts, nest_false.trans (openGroups_of_nest hnest)⟩

/-- Inside a group, no arrow stands outside all groups. -/
theorem inside (h : Passage false 0 c 0 c') : Passage watched (depth + 1) c (depth + 1) c' := by
  obtain ⟨ts, hts, hnest⟩ := h.nest_eq
  have hopen := openGroups_add (nest_false.symm.trans hnest) depth
  rw [Nat.zero_add] at hopen
  exact ⟨h.course, ts, hts, nest_succ hopen⟩

/-- Notes are no part of a passage. -/
theorem withJournal (h : Passage watched depth c d c') (journal : Array LogEvent) :
    Passage watched depth c d { c' with journal := journal } :=
  ⟨h.course.withJournal journal, h.nest_eq⟩

/-- A single token is passed. -/
theorem single (hc : c.Settled) (hcourse : Course c.position c none c')
    (hposition : c'.position = c.position + 1) (ht : c'.buffer[c.position]? = some t)
    (hshift : t.kind.shift watched depth = some d) : Passage watched depth c d c' := by
  refine ⟨hcourse, [t], ?_, ?_⟩
  · rw [passed, hposition, List.take_add_one, hcourse.take_eq hc (Nat.le_refl _),
      Array.getElem?_toList, ht]
    rfl
  · rw [List.map_singleton, nest_cons, hshift]
    rfl

/-- One token is passed with what it opens or closes. -/
theorem pastToken (hc : c.Settled) (ht : c.buffer[c.position]? = some t) (hend : t.isEnd = false)
    (hshift : t.kind.shift watched depth = some d) : Passage watched depth c d (c.pastToken t) := by
  refine single hc ((Course.refl hc (Nat.le_refl _)).pastToken fun _ => ht) ?_ ?_ hshift
  · rw [Cursor.pastToken, hend, if_neg Bool.false_ne_true]
  · rw [buffer_pastToken, ht]

/-- A `>` is passed, which may be the start of a longer token, or nothing. -/
theorem closing? {found : Option Token} (hc : c.Settled)
    (hrun : Cursor.closing? c = (.ok found, c')) : Passage watched depth c depth c' := by
  have hcourse := hc.closing?.course
  rw [hrun] at hcourse
  rw [hc.closing?_apply] at hrun
  obtain ⟨⟨hlook, -⟩, hfound⟩ := hc.peekAhead 0
  rcases hpeek : Cursor.peekAhead 0 c with ⟨_ | t, c₁⟩ <;> rw [hpeek] at hrun hlook
  · cases hrun
  have hposition := (hfound t c₁ hpeek).1
  have ht := hc.getElem?_current hpeek
  dsimp only at hrun
  split at hrun
  · rename_i hgreater
    cases hrun
    refine single hc hcourse ?_ ?_ (TokenKind.shift_of_isNeutral (by rw [hgreater]; rfl) _ _)
    · rw [Cursor.pastToken, if_neg (by simp [Token.isEnd, hgreater]), hposition]
    · rw [buffer_pastToken, ← hposition, ht]
  cases hkind : t.kind.afterGreater? with
  | none =>
    rw [hkind] at hrun
    cases hrun
    exact stay hc hlook hposition
  | some kind =>
    rw [hkind] at hrun
    cases hrun
    have hsplit := (hlook.settled.toWellFormed.withSplit ht hkind).1.splitsTo
    refine single (t := t.greaterHead) hc hcourse ?_ ?_ (TokenKind.shift_of_isNeutral rfl _ _)
    · change c₁.position + 1 = _
      rw [hposition]
    · rw [← Array.getElem?_toList, ← hposition]
      exact hsplit.getElem?_latest

end Passage

end Cursor

/-! ### Productions that nest -/

/-- When arrows are watched while a production runs. -/
inductive Watch where
  | never
  /-- Where arrows start no lambdas. -/
  | barred
  | always

def Watch.isOn : Watch → Bool → Bool
  | .never, _ => false
  | .barred, lambdas => !lambdas
  | .always, _ => true

/-- A production that passes from one number of open groups to another if tokens of some kinds come
next. -/
class Nests (w : Watch) (ks : List TokenKind) (depth : Nat) {α : Type} (p : Parser α)
    (d : outParam Nat) : Prop where
  run : ∀ {s s' : ParserState} {a : α}, s.cursor.Settled → s.cursor.Sees ks → p s = (.ok a, s') →
    s'.lambdas = s.lambdas ∧
      Cursor.Passage (w.isOn s.lambdas) depth s.cursor d s'.cursor

/-- A production that closes all groups that it opens. -/
class Balances (w : Watch) (ks : List TokenKind) {α : Type} (p : Parser α) : Prop where
  nests : Nests w ks 0 p 0

/-- A kind that changes nothing about what is open. -/
class TokenKind.Neutral (k : TokenKind) : Prop where
  isNeutral_eq : k.isNeutral = true

/-- A kind that leads from one number of open groups to another. -/
class TokenKind.Shifts (w : Watch) (k : TokenKind) (depth : Nat) (d : outParam Nat) : Prop where
  shift_eq : ∀ lambdas, k.shift (w.isOn lambdas) depth = some d
  ne_endOfInput : k ≠ .endOfInput

/-- An answer "yes" that tells which kinds come next. -/
class Tells (p : Parser Bool) (ks : List TokenKind) (ls : outParam (List TokenKind)) : Prop where
  sees : ∀ {s s' : ParserState}, s.cursor.Settled → s.cursor.Sees ks → p s = (.ok true, s') →
    s'.cursor.Sees ls

namespace Nests

variable {α β : Type} {w : Watch} {ks ls : List TokenKind} {k : TokenKind} {depth d e : Nat}
  {p q : Parser α} {f : α → Parser β}

/-! ### Weaker statements -/

/-- What is known of what comes next may be forgotten. -/
theorem weaken (h : Nests w [] depth p d) : Nests w ks depth p d where
  run hs _ hrun := h.run hs (.nil _) hrun

instance (priority := low) [h : Nests w [] depth p d] : Nests w (k :: ks) depth p d := h.weaken

instance [h : Balances w ks p] : Nests w ks 0 p 0 := h.nests

instance (priority := low) [h : Balances .always ks p] : Balances .barred ks p where
  nests := ⟨fun {s s' a} hs hks hrun => by
    obtain ⟨hlambdas, hpassage⟩ := h.nests.run hs hks hrun
    refine ⟨hlambdas, ?_⟩
    change Cursor.Passage (!s.lambdas) 0 s.cursor 0 s'.cursor
    cases s.lambdas with
    | false => exact hpassage
    | true => exact hpassage.unwatched⟩

instance (priority := low) [h : Balances .barred ks p] : Balances .never ks p where
  nests := ⟨fun hs hks hrun => by
    obtain ⟨hlambdas, hpassage⟩ := h.nests.run hs hks hrun
    exact ⟨hlambdas, hpassage.unwatched⟩⟩

/-- What is balanced is so inside a group, where no arrow has to be watched. -/
instance [h : Balances .never ks p] : Nests w ks (depth + 1) p (depth + 1) where
  run {s s' a} hs hks hrun := by
    obtain ⟨hlambdas, hpassage⟩ := h.nests.run hs hks hrun
    exact ⟨hlambdas, hpassage.inside⟩

/-! ### Results, looks and failures -/

instance (a : α) : Nests w ks depth (Pure.pure a : Parser α) depth where
  run hs _ hrun := by
    cases hrun
    exact ⟨rfl, .refl hs⟩

/-- What cannot succeed may be said to pass anything. -/
theorem refuse {expected : String} : Nests w ks depth (unexpected expected : Parser α) d where
  run _ _ hrun := absurd (congrArg Prod.fst hrun) (unexpected_ne_ok _ _ _)

instance (expected : String) : Nests w ks depth (unexpected expected : Parser α) depth := refuse

instance : Balances w ks (refuseDepth : Parser α) where
  nests := ⟨fun _ _ hrun => by
    obtain ⟨t, s, -, hthrow⟩ := bind_eq_ok hrun
    cases hthrow⟩

instance {f : Form} (start : Nat) (tree : Tree f) : Nests w ks depth (node start tree) depth where
  run hs _ hrun := by
    rw [node_apply] at hrun
    cases hrun
    exact ⟨rfl, .refl hs⟩

/-- A look at what comes next changes nothing that matters here. -/
theorem look [hkeeps : Keeps p] [hp : Production .free p] {s s' : ParserState} {a : α}
    (hs : s.cursor.Settled) (hks : s.cursor.Sees ks) (hrun : p s = (.ok a, s')) :
    s'.lambdas = s.lambdas ∧ s'.cursor.Sees ks ∧
      ∀ watched depth, Cursor.Passage watched depth s.cursor depth s'.cursor := by
  obtain ⟨hcourse, hposition⟩ := hkeeps.keeps hs hrun
  have hlambdas := (hp.closes s trivial).balanced.lambdas_eq
  rw [hrun] at hlambdas
  exact ⟨hlambdas, hks.course hs hcourse hposition, fun _ _ => .stay hs hcourse hposition⟩

/-! ### Sequences -/

/-- A production nests if its parts do, one after the other. -/
theorem seq (hp : Nests w ks depth p e) (hf : ∀ a, Nests w [] e (f a) d) :
    Nests w ks depth (p >>= f) d where
  run hs hks hrun := by
    obtain ⟨a, s₁, hok, hrest⟩ := bind_eq_ok hrun
    obtain ⟨hlambdas, hpassage⟩ := hp.run hs hks hok
    obtain ⟨hlambdas', hpassage'⟩ := (hf a).run hpassage.course.settled (.nil _) hrest
    rw [hlambdas] at hlambdas' hpassage'
    exact ⟨hlambdas', hpassage.trans hs hpassage'⟩

/-- Nothing comes after a failure. -/
instance (e : SyntaxError) : Nests w ks depth ((throw e : Parser α) >>= f) depth where
  run _ _ hrun := by
    obtain ⟨a, s₁, hthrow, -⟩ := bind_eq_ok hrun
    cases hthrow

/-- What fails nests, since it never comes to an end. -/
theorem refuseThen {expected : String} :
    Nests w ks depth ((unexpected expected : Parser α) >>= f) d where
  run _ _ hrun := by
    obtain ⟨a, s₁, hrefuse, -⟩ := bind_eq_ok hrun
    exact absurd (congrArg Prod.fst hrefuse) (unexpected_ne_ok _ _ _)

/-- A look before the rest tells what the rest starts with. -/
theorem lookThen [Keeps p] [Production .free p]
    (hf : ∀ {s s' : ParserState} {a : α}, s.cursor.Settled → s.cursor.Sees ks →
      p s = (.ok a, s') → ∃ ls, s'.cursor.Sees ls ∧ Nests w ls depth (f a) d) :
    Nests w ks depth (p >>= f) d where
  run {s s' b} hs hks hrun := by
    obtain ⟨a, s₁, hok, hrest⟩ := bind_eq_ok hrun
    obtain ⟨hlambdas, -, hpassage⟩ := look hs hks hok
    obtain ⟨ls, hls, hf⟩ := hf hs hks hok
    have hpassage := hpassage (w.isOn s.lambdas) depth
    obtain ⟨hlambdas', hpassage'⟩ := hf.run hpassage.course.settled hls hrest
    rw [hlambdas] at hlambdas' hpassage'
    exact ⟨hlambdas', hpassage.trans hs hpassage'⟩

instance (priority := low) [hp : Nests w ks depth p e] [hf : ∀ a, Nests w [] e (f a) d] :
    Nests w ks depth (p >>= f) d := .seq hp hf

instance [Keeps p] [Production .free p] [hf : ∀ a, Nests w ks depth (f a) d] :
    Nests w ks depth (p >>= f) d :=
  .lookThen fun hs hks hrun => ⟨ks, (look hs hks hrun).2.1, hf _⟩

/-- To ask for the position opens nothing. -/
theorem fromPosition {f : Nat → Parser β} (hf : ∀ n, Nests w ks depth (f n) d) :
    Nests w ks depth (position >>= f) d where
  run hs hks hrun := (hf _).run hs hks hrun

instance {f : Nat → Parser β} [hf : ∀ n, Nests w ks depth (f n) d] :
    Nests w ks depth (position >>= f) d := .fromPosition hf

instance [hp : Nests w ks depth p d] (g : α → β) : Nests w ks depth (g <$> p) d := by
  rw [map_eq_pure_bind]
  infer_instance

instance {c : Prop} [Decidable c] [Nests w ks depth p d] [Nests w ks depth q d] :
    Nests w ks depth (if c then p else q) d := by
  split <;> infer_instance

/-- What is left depends on the answer to a question. -/
theorem ask {c : Parser Bool} [Keeps c] [Production .free c] [hc : Tells c ks ls]
    (hp : Nests w ls depth p d) (hq : Nests w ks depth q d) :
    Nests w ks depth (c >>= fun found => if found = true then p else q) d := by
  refine .lookThen fun {s s' found} hs hks hrun => ?_
  cases found with
  | false => exact ⟨ks, (look hs hks hrun).2.1, hq⟩
  | true => exact ⟨ls, hc.sees hs hks hrun, hp⟩

/-- A question may be answered with "no" first. -/
theorem askNot {c : Parser Bool} [Keeps c] [Production .free c] [hc : Tells c ks ls]
    (hq : Nests w ks depth q d) (hp : Nests w ls depth p d) :
    Nests w ks depth (c >>= fun found => if (!found) = true then q else p) d := by
  refine .lookThen fun {s s' found} hs hks hrun => ?_
  cases found with
  | false => exact ⟨ks, (look hs hks hrun).2.1, hq⟩
  | true => exact ⟨ls, hc.sees hs hks hrun, hp⟩

instance {c : Parser Bool} [Keeps c] [Production .free c] [Tells c ks ls]
    [hp : Nests w ls depth p d] [hq : Nests w ks depth q d] :
    Nests w ks depth (c >>= fun found => if found = true then p else q) d := .ask hp hq

/-! ### The state around -/

/-- Where arrows start lambdas, those in the branch for them need not be watched. -/
instance {b : Bool} [hp : Nests .never ks depth p d] [hq : Nests .barred ks depth q d] :
    Nests .barred ks depth (get >>= fun s => if (b && s.lambdas) = true then p else q) d where
  run {s s' a} hs hks hrun := by
    change (if (b && s.lambdas) = true then p else q) s = _ at hrun
    split at hrun
    · rename_i hlambdas
      obtain ⟨hkept, hpassage⟩ := hp.run hs hks hrun
      refine ⟨hkept, ?_⟩
      rw [Watch.isOn, (Bool.and_eq_true_iff.mp hlambdas).2]
      exact hpassage
    · exact hq.run hs hks hrun

instance [hp : Nests .never ks depth p d] (allowed : Bool) :
    Nests .never ks depth (withLambdas allowed p) d where
  run {s s' a} hs hks hrun := by
    rw [withLambdas_apply] at hrun
    rcases hok : p { s with lambdas := allowed } with ⟨r, s₁⟩
    rw [hok] at hrun
    cases hrun
    exact ⟨rfl, (hp.run (s := { s with lambdas := allowed }) hs hks hok).2⟩

/-- Arrows that are watched always are so whatever starts lambdas around. -/
instance (priority := low) [hp : Nests .always ks depth p d] (allowed : Bool) :
    Nests w ks depth (withLambdas allowed p) d where
  run {s s' a} hs hks hrun := by
    rw [withLambdas_apply] at hrun
    rcases hok : p { s with lambdas := allowed } with ⟨r, s₁⟩
    rw [hok] at hrun
    cases hrun
    have hpassage := (hp.run (s := { s with lambdas := allowed }) hs hks hok).2
    refine ⟨rfl, ?_⟩
    cases hwatched : w.isOn s.lambdas with
    | false => exact hpassage.unwatched
    | true => exact hpassage

instance [hp : Nests .barred ks depth p d] : Nests .always ks depth (withLambdas false p) d where
  run {s s' a} hs hks hrun := by
    rw [withLambdas_apply] at hrun
    rcases hok : p { s with lambdas := false } with ⟨r, s₁⟩
    rw [hok] at hrun
    cases hrun
    exact ⟨rfl, (hp.run (s := { s with lambdas := false }) hs hks hok).2⟩

instance [hp : Nests w ks depth p d] (context : String) :
    Nests w ks depth (guarded context p) d where
  run {s s' a} hs hks hrun := by
    rw [guarded_apply] at hrun
    split at hrun
    · rcases hpeek : peek 0 s with ⟨_ | _, _⟩ <;> rw [hpeek] at hrun <;> cases hrun
    rcases hok : p (entered context s) with ⟨r, s₁⟩
    rw [hok] at hrun
    cases hrun
    have hcursor := (pushContext_eq context { s with depth := s.depth + 1 }).1
    have hentered : Cursor.Passage (w.isOn s.lambdas) depth s.cursor depth
        (entered context s).cursor := by
      rw [show (entered context s).cursor = _ from hcursor]
      exact (Cursor.Passage.refl hs).withJournal _
    have hsees : (entered context s).cursor.Sees ks := by
      rw [show (entered context s).cursor = _ from hcursor]
      exact hks
    have hkept : (entered context s).lambdas = s.lambdas := ParserState.lambdas_pushContext _ _
    obtain ⟨hlambdas, hpassage⟩ := hp.run hentered.course.settled hsees hok
    rw [hkept] at hlambdas hpassage
    exact ⟨hlambdas, hentered.trans hs hpassage⟩

instance [Balances w ks p] (context : String) : Balances w ks (guarded context p) := ⟨inferInstance⟩

instance [Balances .never ks p] (allowed : Bool) : Balances .never ks (withLambdas allowed p) :=
  ⟨inferInstance⟩

end Nests

/-! ### Kinds of tokens -/

namespace TokenKind

variable {w : Watch} {depth : Nat}

instance (priority := low) {k : TokenKind} [hk : k.Neutral] : k.Shifts w depth depth where
  shift_eq _ := shift_of_isNeutral hk.isNeutral_eq _ _
  ne_endOfInput := by
    rintro rfl
    cases hk.isNeutral_eq

instance : Shifts w .leftParen depth (depth + 1) := ⟨fun _ => rfl, by decide⟩

instance : Shifts w .leftBracket depth (depth + 1) := ⟨fun _ => rfl, by decide⟩

instance : Shifts w .leftBrace depth (depth + 1) := ⟨fun _ => rfl, by decide⟩

instance : Shifts w .rightParen (depth + 1) depth := ⟨fun _ => rfl, by decide⟩

instance : Shifts w .rightBracket (depth + 1) depth := ⟨fun _ => rfl, by decide⟩

instance : Shifts w .rightBrace (depth + 1) depth := ⟨fun _ => rfl, by decide⟩

/-- Where arrows are not watched, they are like any other token. -/
instance : Shifts .never .arrow depth depth := ⟨fun _ => rfl, by decide⟩

instance : Neutral .identifier := ⟨rfl⟩

instance (keyword : Keyword) : Neutral (.keyword keyword) := ⟨rfl⟩

instance : Neutral .nullLiteral := ⟨rfl⟩

instance : Neutral .semicolon := ⟨rfl⟩

instance : Neutral .comma := ⟨rfl⟩

instance : Neutral .dot := ⟨rfl⟩

instance : Neutral .ellipsis := ⟨rfl⟩

instance : Neutral .at := ⟨rfl⟩

instance : Neutral .colonColon := ⟨rfl⟩

instance : Neutral .assign := ⟨rfl⟩

instance : Neutral .less := ⟨rfl⟩

instance : Neutral .question := ⟨rfl⟩

instance : Neutral .colon := ⟨rfl⟩

instance : Neutral .minus := ⟨rfl⟩

instance : Neutral .amp := ⟨rfl⟩

instance : Neutral .pipe := ⟨rfl⟩

end TokenKind

/-! ### Questions -/

/-- A lookahead goes back to where it started. -/
instance {α : Type} {w : Lookahead α} [h : Production .free w.run] : Keeps w.run where
  keeps {s s' a} hs hrun := by
    have hcourse := (h.runs hs trivial).course
    rw [hrun] at hcourse
    have hstate := congrArg Prod.snd hrun
    rw [Lookahead.run, position_bind_apply] at hstate
    refine ⟨hcourse, ?_⟩
    rw [← show _ = s' from hstate]
    rfl

instance (event : LogEvent) : Keeps (note event) where
  keeps hs hrun := by
    cases hrun
    exact ⟨(Cursor.Course.refl hs (Nat.le_refl _)).withJournal _, rfl⟩

/-- What goes by the current kind passes nothing if it does so for every kind. -/
theorem Keeps.ofKind {α : Type} {f : TokenKind → Parser α} (hf : ∀ kind, Keeps (f kind)) :
    Keeps (currentKind >>= f) := inferInstance

section Questions

variable {ks ls ms : List TokenKind} {s s' : ParserState} {t : Token}

/-- The current token is the one that was looked at. -/
theorem sees_of_peek (hs : s.cursor.Settled) (hrun : peek 0 s = (.ok t, s')) :
    s'.cursor.Sees [t.kind] := Cursor.sees_of_getElem? (hs.getElem?_current (peek_eq_ok hrun))

/-- A kind that was looked at comes next. -/
theorem sees_of_currentKind {kind : TokenKind} (hs : s.cursor.Settled)
    (hrun : currentKind s = (.ok kind, s')) : s'.cursor.Sees [kind] := by
  obtain ⟨t, s₁, hpeek, hpure⟩ := bind_eq_ok hrun
  cases hpure
  exact sees_of_peek hs hpeek

/-- What was seen before an answer is seen after it. -/
instance (priority := low) {p : Parser Bool} [Keeps p] : Tells p ks ks where
  sees hs hks hrun := by
    have hkeeps : Keeps p := inferInstance
    obtain ⟨hcourse, hposition⟩ := hkeeps.keeps hs hrun
    exact hks.course hs hcourse hposition

instance (kind : TokenKind) : Tells (check kind) ks [kind] where
  sees hs _ hrun := by
    obtain ⟨kind', s₁, hcurrent, hpure⟩ := bind_eq_ok hrun
    obtain ⟨hbeq, rfl⟩ := Prod.mk.inj hpure
    rw [← eq_of_beq (Except.ok.inj hbeq)]
    exact sees_of_currentKind hs hcurrent

instance (keyword : Keyword) : Tells (checkKeyword keyword) ks [.keyword keyword] :=
  inferInstanceAs (Tells (check (.keyword keyword)) ks _)

instance (word : String) : Tells (checkWord word) ks [.identifier] where
  sees hs _ hrun := by
    obtain ⟨t, s₁, hpeek, hpure⟩ := bind_eq_ok hrun
    obtain ⟨hword, rfl⟩ := Prod.mk.inj hpure
    rw [← eq_of_beq (Bool.and_eq_true_iff.mp (Except.ok.inj hword)).1]
    exact sees_of_peek hs hpeek

/-- The answer may depend on tokens further on. -/
instance {p q : Parser Bool} [hp : Tells p ks ls] [Keeps p] [hq : Tells q ls ms] :
    Tells (p >>= fun found => if found = true then q else pure false) ks ms where
  sees hs hks hrun := by
    have hkeeps : Keeps p := inferInstance
    obtain ⟨found, s₁, hfound, hrest⟩ := bind_eq_ok hrun
    cases found with
    | false => cases hrest
    | true => exact hq.sees (hkeeps.keeps hs hfound).1.settled (hp.sees hs hks hfound) hrest

instance {p q : Parser Bool} [Tells p ks ls] [Keeps p] [Tells q ls ms] :
    Tells (p >>= fun found => if (!found) = true then pure false else q) ks ms := by
  have hswap : (p >>= fun found => if (!found) = true then pure false else q) =
      p >>= fun found => if found = true then q else pure false := by
    congr
    funext found
    cases found <;> rfl
  rw [hswap]
  infer_instance

/-- A token that is looked at behind the others is seen with them. -/
theorem sees_of_peekKind {kind : TokenKind} (hs : s.cursor.Settled) (hks : s.cursor.Sees ks)
    (hrun : peekKind ks.length s = (.ok kind, s')) (hend : kind ≠ .endOfInput) :
    s'.cursor.Sees (ks ++ [kind]) := by
  obtain ⟨t, s₁, hpeek, hpure⟩ := bind_eq_ok hrun
  cases hpure
  have hkeeps : Keeps (peek ks.length) := inferInstance
  obtain ⟨hcourse, hposition⟩ := hkeeps.keeps hs hpeek
  refine (hks.course hs hcourse hposition).concat ?_
  rw [hposition]
  exact ((hs.peekAhead ks.length).2 _ _ (peek_eq_ok hpeek)).2 (beq_false_of_ne hend)

instance (first second : TokenKind) : Keeps (checkPair first second) := by
  unfold checkPair
  infer_instance

/-- A kind that was compared with one further on is known there. -/
theorem tells_peekKind {n : Nat} {k : TokenKind} [hk : k.Proper] (hn : ks.length = n) :
    Tells (peekKind n >>= fun kind => pure (kind == k)) ks (ks ++ [k]) where
  sees hs hks hrun := by
    subst hn
    obtain ⟨kind, s₁, hkind, hpure⟩ := bind_eq_ok hrun
    obtain ⟨hbeq, rfl⟩ := Prod.mk.inj hpure
    obtain rfl := eq_of_beq (Except.ok.inj hbeq)
    exact sees_of_peekKind hs hks hkind hk.ne_endOfInput

/-- A word that was compared with one further on is known to be an identifier. -/
theorem tells_peekIsWord {n : Nat} {word : String} (hn : ks.length = n) :
    Tells (peekIsWord n word) ks (ks ++ [.identifier]) where
  sees {s s'} hs hks hrun := by
    subst hn
    obtain ⟨t, s₁, hpeek, hpure⟩ := bind_eq_ok hrun
    obtain ⟨hword, rfl⟩ := Prod.mk.inj hpure
    have hkind := eq_of_beq (Bool.and_eq_true_iff.mp (Except.ok.inj hword)).1
    have hlook : peekKind ks.length s = (.ok t.kind, s₁) := by
      rw [peekKind, bind_apply, hpeek]
      rfl
    rw [hkind] at hlook
    exact sees_of_peekKind hs hks hlook (by decide)

instance (first second : TokenKind) [second.Proper] :
    Tells (checkPair first second) ks [first, second] := by
  have hnext : Tells (peekKind 1 >>= fun kind => pure (kind == second)) [first] [first, second] :=
    tells_peekKind rfl
  unfold checkPair
  infer_instance

/-- A question that goes on if a token further on is of a kind. -/
theorem tells_unless {n : Nat} {k : TokenKind} [hk : k.Proper] {q : Parser Bool}
    (hn : ks.length = n) (hq : Tells q (ks ++ [k]) ms) :
    Tells (peekKind n >>= fun kind => if (kind != k) = true then pure false else q) ks ms where
  sees hs hks hrun := by
    subst hn
    have hkeeps : Keeps (peekKind ks.length) := inferInstance
    obtain ⟨kind, s₁, hkind, hrest⟩ := bind_eq_ok hrun
    by_cases hne : kind = k
    · subst hne
      rw [if_neg (by simp)] at hrest
      exact hq.sees (hkeeps.keeps hs hkind).1.settled
        (sees_of_peekKind hs hks hkind hk.ne_endOfInput) hrest
    · rw [if_pos (by simpa using hne)] at hrest
      cases hrest

instance : Keeps atNonSealed := by
  unfold atNonSealed
  infer_instance

/-- The three tokens of `non-sealed`. -/
instance : Tells atNonSealed ks [.identifier, .minus, .identifier] := by
  have hminus : TokenKind.Proper .minus := ⟨by decide⟩
  have hword : Tells (peekIsWord 2 "sealed") [.identifier, .minus]
      [.identifier, .minus, .identifier] := tells_peekIsWord rfl
  have hrest : Tells (do
      if (← peekKind 1) != .minus then return false
      if !(← peekIsWord 2 "sealed") then return false
      return areAdjacent (← peek 0) (← peek 1) (← peek 2))
      [.identifier] [.identifier, .minus, .identifier] := by
    refine tells_unless rfl ?_
    exact inferInstanceAs (Tells _ [.identifier, .minus] _)
  unfold atNonSealed
  infer_instance

end Questions

namespace Nests

variable {α β : Type} {w : Watch} {ks ls : List TokenKind} {k : TokenKind} {depth d e : Nat}
  {p q : Parser α} {f : α → Parser β}

/-! ### Kinds that were looked at -/

/-- What comes after the kind of the current token. -/
theorem ofKind {f : TokenKind → Parser β} (hf : ∀ kind, Nests w [kind] depth (f kind) d) :
    Nests w ks depth (currentKind >>= f) d :=
  .lookThen fun hs _ hrun => ⟨_, sees_of_currentKind hs hrun, hf _⟩

/-- What comes after a look behind the kinds that were seen before. -/
theorem next {n : Nat} [hk : k.Proper] (hn : ks.length = n) (hp : Nests w (ks ++ [k]) depth p d)
    (hq : Nests w ks depth q d) :
    Nests w ks depth (peekKind n >>= fun kind => if (kind == k) = true then p else q) d := by
  subst hn
  refine .lookThen fun {s s' kind} hs hks hrun => ?_
  by_cases hkind : kind = k
  · subst hkind
    refine ⟨_, sees_of_peekKind hs hks hrun hk.ne_endOfInput, ?_⟩
    simpa using hp
  · refine ⟨ks, (look hs hks hrun).2.1, ?_⟩
    simpa [hkind] using hq

/-! ### Tokens that are taken -/

/-- A token that was looked at is the one that is passed. -/
theorem eq_of_advance {s s' : ParserState} {t : Token} (hks : s.cursor.Sees (k :: ks))
    (hk : k ≠ .endOfInput) (hrun : advance s = (.ok t, s')) :
    t.kind = k ∧ t.isEnd = false ∧ s.cursor.buffer[s.cursor.position]? = some t ∧
      s' = { s with cursor := s.cursor.pastToken t } ∧ s'.cursor.Sees ks := by
  obtain ⟨u, hu, rfl, hrest⟩ := hks.exists_token
  have hend : u.isEnd = false := beq_false_of_ne hk
  rw [Parser.advance, read_apply, Cursor.advance_apply, Cursor.peekAhead_zero hu] at hrun
  cases hrun
  refine ⟨rfl, hend, hu, rfl, ?_⟩
  change (s.cursor.pastToken _).Sees ks
  rw [Cursor.pastToken, if_neg (by simp [hend])]
  exact hrest

/-- A token that was looked at is taken, and a node can start with it. -/
theorem stretch_of_advance {x : Tokenized} {s s' : ParserState} {t : Token} (hs : s.cursor.On x)
    (hks : s.cursor.Sees (k :: ks)) (hk : k.leads = true) (hrun : Parser.advance s = (.ok t, s')) :
    t.kind = k ∧ Stretch x s.cursor [t] [] .taken s'.cursor := by
  obtain ⟨rfl, -, ht, rfl, -⟩ := eq_of_advance hks (by rintro hend; rw [hend] at hk; cases hk) hrun
  exact ⟨rfl, .single (.refl hs) ht hk⟩

/-- What comes after a token that was looked at and is taken. -/
theorem take [hk : k.Shifts w depth e] {f : Token → Parser β}
    (hf : ∀ t, t.kind = k → Nests w ks e (f t) d) :
    Nests w (k :: ks) depth (Parser.advance >>= f) d where
  run {s s' b} hs hks hrun := by
    obtain ⟨t, s₁, hok, hrest⟩ := bind_eq_ok hrun
    obtain ⟨rfl, hend, ht, rfl, hks'⟩ := eq_of_advance hks hk.ne_endOfInput hok
    have hpassage := Cursor.Passage.pastToken hs ht hend (hk.shift_eq s.lambdas)
    obtain ⟨hlambdas, hpassage'⟩ := (hf t rfl).run hpassage.course.settled hks' hrest
    exact ⟨hlambdas, hpassage.trans hs hpassage'⟩

instance [k.Shifts w depth e] {f : Token → Parser β} [hf : ∀ t, Nests w ks e (f t) d] :
    Nests w (k :: ks) depth (Parser.advance >>= f) d := .take fun t _ => hf t

instance [hk : k.Shifts w depth d] : Nests w (k :: ks) depth Parser.advance d where
  run {s s' t} hs hks hrun := by
    obtain ⟨rfl, hend, ht, rfl, -⟩ := eq_of_advance hks hk.ne_endOfInput hrun
    exact ⟨rfl, .pastToken hs ht hend (hk.shift_eq s.lambdas)⟩

instance [k.Shifts w depth d] : Nests w ks depth (expect k) d := by
  unfold expect
  exact .ask inferInstance .refuse

/-- A token that was demanded and can start a node has been passed. -/
theorem stretch_of_expect {x : Tokenized} {s s' : ParserState} {t : Token} (hs : s.cursor.On x)
    (hk : k.leads = true) (hrun : expect k s = (.ok t, s')) :
    t.kind = k ∧ Stretch x s.cursor [t] [] .taken s'.cursor := by
  have hcheck : Tells (check k) [] [k] := inferInstance
  have hyields : Yields x (check k) fun found => if found then .facing k else .fresh :=
    inferInstance
  unfold expect at hrun
  obtain ⟨found, s₁, hfound, hrest⟩ := bind_eq_ok hrun
  obtain ⟨ts, hlook⟩ := hyields.run hs hfound
  cases found with
  | false => exact absurd (congrArg Prod.fst hrest) (unexpected_ne_ok _ _ _)
  | true =>
    obtain ⟨rfl, -⟩ := (Effect.facing_le_fresh k).holds hlook.holds
    have hsees := hcheck.sees hs.settled (.nil _) hfound
    obtain ⟨hkind, htaken⟩ := stretch_of_advance (hlook.on hs) hsees hk hrest
    exact ⟨hkind, (hlook.trans hs htaken).le (by simp [Effect.facing, hk, Effect.andThen])⟩

instance (keyword : Keyword) : Nests w ks depth (expectKeyword keyword) depth :=
  inferInstanceAs (Nests w ks depth (expect (.keyword keyword)) depth)

instance : Nests w ks depth expectIdentifier depth := by
  unfold expectIdentifier
  infer_instance

/-- An identifier is taken, and what was seen behind it comes next. -/
theorem takeIdentifier {f : String → Parser β} (hf : ∀ name, Nests w ks depth (f name) d) :
    Nests w (.identifier :: ks) depth (expectIdentifier >>= f) d := by
  unfold expectIdentifier
  rw [bind_assoc]
  refine .lookThen fun {s s' found} hs hks hrun => ⟨_, (look hs hks hrun).2.1, ?_⟩
  cases found with
  | false => exact .refuseThen
  | true =>
    rw [if_pos rfl, bind_assoc]
    exact .take fun t _ => hf t.source

instance : Nests w ks depth expectTypeIdentifier depth := by
  unfold expectTypeIdentifier
  infer_instance

instance (word : String) : Nests w ks depth (expectWord word) depth := by
  unfold expectWord
  infer_instance

/-- What comes after a token that is taken if it is there. -/
instance [k.Shifts w depth e] [Nests w [] e p d] [Nests w ks depth q d] :
    Nests w ks depth (eat k >>= fun found => if found = true then p else q) d := by
  have heat : (eat k >>= fun found => if found = true then p else q) =
      check k >>= fun found => if found = true then Parser.advance >>= fun _ => p else q := by
    rw [eat, bind_assoc]
    congr
    funext found
    cases found <;> simp
  rw [heat]
  infer_instance

instance [k.Neutral] : Nests w ks depth (eat k) depth := by
  unfold eat
  infer_instance

instance (keyword : Keyword) : Nests w ks depth (eatKeyword keyword) depth :=
  inferInstanceAs (Nests w ks depth (eat (.keyword keyword)) depth)

instance (word : String) : Nests w ks depth (eatWord word) depth := by
  unfold eatWord
  infer_instance

/-! ### Splitting a `>` off -/

instance : Nests w ks depth closing? depth where
  run {s s' found} hs _ hrun := by
    rw [closing?_eq, read_apply] at hrun
    rcases hok : Cursor.closing? s.cursor with ⟨_ | found, c'⟩ <;> rw [hok] at hrun <;> cases hrun
    exact ⟨rfl, .closing? hs hok⟩

instance {p : Token → Parser α} [hp : ∀ t, Nests w [] depth (p t) d]
    [hq : Nests w [] depth q d] :
    Nests w ks depth (splitGreater >>= fun found =>
      if found = true then Parser.advance >>= p else q) d := by
  rw [splitGreater_bind_eq]
  refine .seq inferInstance fun token => ?_
  cases token with
  | none => exact hq
  | some t => exact hp t

/-! ### Repetition -/

/-- A loop nests if its steps do. -/
theorem loopFor {step : α → Parser (Step α β)} (h : ∀ a, Nests w [] depth (step a) depth)
    (n : Nat) (a : α) : Nests w [] depth (loopFor step n a) depth := by
  induction n generalizing a with
  | zero =>
    rw [Parser.loopFor]
    infer_instance
  | succ n ih =>
    rw [Parser.loopFor]
    refine .seq (h a) fun outcome => ?_
    cases outcome with
    | again next => exact ih next
    | done result => infer_instance

instance {step : α → Parser (Step α β)} [h : ∀ a, Nests w [] depth (step a) depth] (a : α) :
    Nests w ks depth (loop step a) depth where
  run {s _ _} hs _ hrun := (loopFor h (loopBound s) a).run hs (.nil _) hrun

instance {condition : Parser Bool} [Nests w [] depth condition depth] [Nests w [] depth p depth] :
    Nests w ks depth (manyWhile condition p) depth := by
  unfold manyWhile
  infer_instance

instance {condition : Parser Bool} [Keeps condition] [Production .free condition]
    [Tells condition [] ls] [Nests w ls depth p depth] :
    Nests w ks depth (manyWhile condition p) depth := by
  unfold manyWhile
  infer_instance

instance (kind : TokenKind) [Nests w [] depth p depth] :
    Nests w ks depth (manyUntil kind p) depth := by
  unfold manyUntil
  infer_instance

instance {item : Parser (Option α)} [Nests w [] depth item depth] :
    Nests w ks depth (many item) depth := by
  unfold many
  have hstep (items : List α) : Nests w [] depth (item >>= fun found => match found with
      | some x => pure (Step.again (x :: items))
      | none => pure (Step.done items.reverse)) depth := by
    refine .seq inferInstance fun found => ?_
    cases found <;> infer_instance
  infer_instance

instance (kind : TokenKind) [kind.Neutral] [Nests w [] depth p depth] :
    Nests w ks depth (separatedBy kind p) depth := by
  unfold separatedBy
  infer_instance

instance (kind : TokenKind) [Nests w [] depth p depth] :
    Nests w ks depth (trailingCommas kind p) depth := by
  unfold trailingCommas
  infer_instance

instance (kind : TokenKind) [kind.Neutral] [Nests w [] depth p depth] :
    Nests w ks depth (after? kind p) depth := by
  unfold after?
  infer_instance

instance (kind : TokenKind) [Nests w [kind] depth p depth] :
    Nests w ks depth (at? kind p) depth := by
  unfold at?
  infer_instance

end Nests

/-! ### Going back -/

/-- The rest of a production that may go back to where it started, given the numbers of groups that
were open there and are open now, and kinds that come next. -/
structure Regresses (w : Watch) (n depth e : Nat) (ks : List TokenKind) {α : Type} (p : Parser α)
    (d : Nat) : Prop where
  run : ∀ {c : Cursor} {s s' : ParserState} {a : α}, c.Settled → c.position = n →
    Cursor.Passage (w.isOn s.lambdas) depth c e s.cursor → s.cursor.Sees ks → p s = (.ok a, s') →
    s'.lambdas = s.lambdas ∧ Cursor.Passage (w.isOn s.lambdas) depth c d s'.cursor

namespace Regresses

variable {α β : Type} {w : Watch} {ks ls : List TokenKind} {k : TokenKind} {n depth d e e' : Nat}
  {p q : Parser α} {f : α → Parser β}

/-- A production that remembers where it starts. -/
theorem start {f : Nat → Parser α} (h : ∀ n, Regresses w n depth depth [] (f n) d) :
    Nests w ks depth (position >>= f) d where
  run hs _ hrun := (h _).run hs rfl (.refl hs) (.nil _) hrun

/-- What does not go back nests from where it is. -/
theorem tail (hp : Nests w ks e p d) : Regresses w n depth e ks p d where
  run hc _ h hks hrun := by
    obtain ⟨hlambdas, hpassage⟩ := hp.run h.course.settled hks hrun
    exact ⟨hlambdas, h.trans hc hpassage⟩

/-- The rest of a production nests from behind its first part. -/
theorem seq (hp : Nests w ks e p e') (hf : ∀ a, Regresses w n depth e' [] (f a) d) :
    Regresses w n depth e ks (p >>= f) d where
  run hc hn h hks hrun := by
    obtain ⟨a, s₁, hok, hrest⟩ := bind_eq_ok hrun
    obtain ⟨hlambdas, hpassage⟩ := hp.run h.course.settled hks hok
    rw [← hlambdas] at hpassage h ⊢
    exact (hf a).run hc hn (h.trans hc hpassage) (.nil _) hrest

/-- After a look the rest of a production goes on with what was seen. -/
theorem lookThen [Keeps p] [Production .free p]
    (hf : ∀ {s s' : ParserState} {a : α}, s.cursor.Settled → s.cursor.Sees ks →
      p s = (.ok a, s') → ∃ ls, s'.cursor.Sees ls ∧ Regresses w n depth e ls (f a) d) :
    Regresses w n depth e ks (p >>= f) d where
  run hc hn h hks hrun := by
    obtain ⟨a, s₁, hok, hrest⟩ := bind_eq_ok hrun
    obtain ⟨hlambdas, -, hpassage⟩ := Nests.look h.course.settled hks hok
    obtain ⟨ls, hls, hf⟩ := hf h.course.settled hks hok
    rw [← hlambdas] at h ⊢
    exact hf.run hc hn (h.trans hc (hpassage _ _)) hls hrest

/-- A question that is answered with "yes" tells what comes next. -/
theorem ask {c : Parser Bool} [Keeps c] [Production .free c] [hc : Tells c ks ls]
    (hp : Regresses w n depth e ls p d) (hq : Regresses w n depth e ks q d) :
    Regresses w n depth e ks (c >>= fun found => if found = true then p else q) d := by
  refine .lookThen fun {s s' found} hs hks hrun => ?_
  cases found with
  | false => exact ⟨ks, (Nests.look hs hks hrun).2.1, hq⟩
  | true => exact ⟨ls, hc.sees hs hks hrun, hp⟩

/-- A question may be answered with "no" first. -/
theorem askNot {c : Parser Bool} [Keeps c] [Production .free c] [hc : Tells c ks ls]
    (hq : Regresses w n depth e ks q d) (hp : Regresses w n depth e ls p d) :
    Regresses w n depth e ks (c >>= fun found => if (!found) = true then q else p) d := by
  refine .lookThen fun {s s' found} hs hks hrun => ?_
  cases found with
  | false => exact ⟨ks, (Nests.look hs hks hrun).2.1, hq⟩
  | true => exact ⟨ls, hc.sees hs hks hrun, hp⟩

/-- A kind further on may be asked for. -/
theorem next {m : Nat} [hk : k.Proper] (hm : ks.length = m)
    (hp : Regresses w n depth e (ks ++ [k]) p d) (hq : Regresses w n depth e ks q d) :
    Regresses w n depth e ks
      (peekKind m >>= fun kind => if (kind == k) = true then p else q) d := by
  subst hm
  refine .lookThen fun {s s' kind} hs hks hrun => ?_
  by_cases hkind : kind = k
  · subst hkind
    refine ⟨_, sees_of_peekKind hs hks hrun hk.ne_endOfInput, ?_⟩
    simpa using hp
  · refine ⟨ks, (Nests.look hs hks hrun).2.1, ?_⟩
    simpa [hkind] using hq

/-- A condition may decide how to go on. -/
theorem cases {c : Prop} [Decidable c] (hp : Regresses w n depth e ks p d)
    (hq : Regresses w n depth e ks q d) : Regresses w n depth e ks (if c then p else q) d := by
  split
  · exact hp
  · exact hq

/-- The parse goes back to where the production started. -/
theorem goBack {f : Unit → Parser α} (hf : Nests w [] depth (f ()) d) :
    Regresses w n depth e ks (restore n >>= f) d where
  run {c s s' a} hc hn h _ hrun := by
    subst hn
    have hback := h.course.restore (Nat.le_refl _) h.course.le_position
    have hstay : Cursor.Passage (w.isOn s.lambdas) depth c depth (s.cursor.restore c.position) :=
      .stay hc hback rfl
    obtain ⟨hlambdas, hpassage⟩ :=
      hf.run (s := s.restorePosition c.position) hback.settled (.nil _) hrun
    exact ⟨hlambdas, hstay.trans hc hpassage⟩

end Regresses

end JavaSyntax
