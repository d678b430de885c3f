import JavaSyntax.Proofs.Syntax.Attempt
import JavaSyntax.Proofs.Syntax.Pace
import Mathlib.Data.List.Infix

/-!
# The budget of lookaheads

A lookahead asks for its budget before each token of a bracketed group and before each
argument of a type. It does not ask while it passes the names, dots, brackets and closing
angles of a type. So a lookahead that answers "yes" has passed only such tokens since its
budget was used up, but there may be any number of them.
-/

namespace JavaSyntax

open JavaSyntax.Parser (Step)
open Work

/-! ### What is counted -/

/-- Whether a lookahead may pass a token of this kind without asking for its budget. -/
def TokenKind.isFree : TokenKind → Bool
  | .identifier | .dot | .at | .question | .less | .greater | .shiftRight
  | .unsignedShiftRight | .leftBracket | .rightBracket => true
  | .keyword .final | .keyword .extends | .keyword .super => true
  | .keyword word => word.isPrimitiveType
  | _ => false

/-- How many `>` a lookahead may count for a token of this kind, or that it counts one token. -/
def TokenKind.weight : TokenKind → Nat
  | .shiftRight => 2
  | .unsignedShiftRight => 3
  | _ => 1

/-- Every token counts. -/
theorem TokenKind.one_le_weight (kind : TokenKind) : 1 ≤ kind.weight := by
  unfold weight
  split <;> omega

/-- A primitive type is passed without asking. -/
theorem TokenKind.isFree_of_isPrimitiveType {word : Keyword} (h : word.isPrimitiveType = true) :
    (keyword word).isFree = true := by
  cases word <;> first | rfl | exact h

namespace Lookahead

/-- How much a lookahead may count for some tokens. -/
def weight : List Token → Nat
  | [] => 0
  | t :: ts => t.kind.weight + weight ts

@[simp] theorem weight_nil : weight [] = 0 := rfl

@[simp] theorem weight_singleton (t : Token) : weight [t] = t.kind.weight := rfl

/-- What is counted for tokens in a row adds up. -/
@[simp] theorem weight_append (us vs : List Token) : weight (us ++ vs) = weight us + weight vs := by
  induction us with
  | nil => simp
  | cons t us ih => rw [List.cons_append, weight, weight, ih, Nat.add_assoc]

/-- A lookahead that has counted so far is within its budget, or has been since for free
tokens only. -/
def Affordable (count : Nat) (ts : List Token) : Prop :=
  ∃ us vs, ts = us ++ vs ∧ us.length ≤ Limits.maxLookaheadTokens + 1 ∧
    (∀ t ∈ vs, t.kind.isFree = true) ∧ count ≤ Limits.maxLookaheadTokens + 1 + weight vs

namespace Affordable

variable {count : Nat} {ts : List Token} {t : Token}

/-- Nothing is spent for nothing. -/
theorem nil : Affordable 0 [] := ⟨[], [], rfl, by simp, by simp, Nat.zero_le _⟩

/-- A free token can always be afforded, whatever is counted for it within its weight. -/
theorem append_free (h : Affordable count ts) (ht : t.kind.isFree = true) {n : Nat}
    (hn : n ≤ count + t.kind.weight) : Affordable n (ts ++ [t]) := by
  obtain ⟨us, vs, rfl, hlength, hfree, hcount⟩ := h
  refine ⟨us, vs ++ [t], List.append_assoc .., hlength, ?_, ?_⟩
  · intro u hu
    rcases List.mem_append.mp hu with hu | hu
    · exact hfree u hu
    · rwa [List.mem_singleton.mp hu]
  · rw [weight_append, weight_singleton]
    omega

/-- Any token may be passed while the budget lasts. -/
theorem append_any (hcount : count ≤ Limits.maxLookaheadTokens) (hlength : ts.length ≤ count) :
    Affordable (count + 1) (ts ++ [t]) := by
  refine ⟨ts ++ [t], [], (List.append_nil _).symm, ?_, by simp, ?_⟩
  · rw [List.length_append, List.length_singleton]
    omega
  · omega

/-- The tokens behind the budget are free. -/
theorem isFree_of_isPrefix (h : Affordable count ts) {ps : List Token} (hps : ps <+: ts) :
    ∀ t ∈ ps.drop (Limits.maxLookaheadTokens + 1), t.kind.isFree = true := by
  obtain ⟨us, vs, rfl, hlength, hfree, -⟩ := h
  intro t ht
  have hmem := (hps.drop (Limits.maxLookaheadTokens + 1)).subset ht
  rw [List.drop_append, List.drop_eq_nil_of_le hlength, List.nil_append] at hmem
  exact hfree t (List.mem_of_mem_drop hmem)

end Affordable

/-! ### Where a lookahead stands -/

/-- The tokens that were passed since a cursor stood somewhere. -/
def passedSince (start c : Cursor) : List Token := c.passed.drop start.position

/-- A cursor that has gone on from where it started, and has read at most two tokens ahead
since. -/
structure Ranges (start c : Cursor) : Prop where
  settled : c.Settled
  le_position : start.position ≤ c.position
  size_le : c.buffer.size ≤ max start.buffer.size (c.position + 2)

/-- A lookahead may end like this: it has passed only free tokens behind its budget, except
perhaps for the last one. -/
structure Stopped (start c : Cursor) : Prop extends Ranges start c where
  isFree : ∀ t ∈ (passedSince start c).dropLast.drop (Limits.maxLookaheadTokens + 1),
    t.kind.isFree = true

/-- The tokens of which a lookahead has passed at least a part: those before the current one, and
the current one if so many of its `>` are not yet passed. -/
inductive Begun (start c : Cursor) : Nat → List Token → Prop
  | outside : Begun start c 0 (passedSince start c)
  | inside {t : Token} {n : Nat} (ht : c.buffer[c.position]? = some t)
      (hfree : t.kind.isFree = true) (hend : t.isEnd = false) :
      Begun start c (n + 1) (passedSince start c ++ [t])

/-- A lookahead may go on like this: what it has counted is within its budget or was spent for
free tokens. If `whole` holds, it stands outside of tokens. -/
structure Thrifty (start : Cursor) (whole : Prop) (σ : LookaheadState) (c : Cursor) : Prop
    extends Ranges start c where
  begun : ∃ ts, Begun start c σ.pending ts ∧ ts.length ≤ σ.consumed ∧
    σ.consumed + σ.pending ≤ weight ts ∧ Affordable (σ.consumed + σ.pending) ts
  pending_eq : whole → σ.pending = 0

section States

variable {start c c' : Cursor} {whole : Prop} {σ τ : LookaheadState} {ts : List Token} {t : Token}

/-- What was passed is a part of what was begun. -/
theorem Begun.isPrefix {n : Nat} (h : Begun start c n ts) : passedSince start c <+: ts := by
  cases h with
  | outside => exact List.prefix_rfl
  | inside => exact List.prefix_append ..

/-- A lookahead that may go on may also end. -/
theorem Thrifty.stopped (h : Thrifty start whole σ c) : Stopped start c where
  toRanges := h.toRanges
  isFree := by
    obtain ⟨ts, hbegun, -, -, haffordable⟩ := h.begun
    exact haffordable.isFree_of_isPrefix ((List.dropLast_prefix _).trans hbegun.isPrefix)

/-- It does not matter where a lookahead stands if nobody asks. -/
theorem Thrifty.mono (h : Thrifty start whole σ c) : Thrifty start False σ c :=
  ⟨h.toRanges, h.begun, False.elim⟩

/-- Only the counts matter. -/
theorem Thrifty.congr (h : Thrifty start whole σ c) (hconsumed : τ.consumed = σ.consumed)
    (hpending : τ.pending = σ.pending) : Thrifty start whole τ c := by
  obtain ⟨hranges, hbegun, hwhole⟩ := h
  refine ⟨hranges, ?_, ?_⟩
  · rwa [hconsumed, hpending]
  · rwa [hpending]

/-- A lookahead starts like this. -/
theorem Thrifty.initial (h : c.Settled) : Thrifty c whole {} c := by
  have hnone : passedSince c c = [] := List.drop_eq_nil_of_le h.length_passed.le
  refine ⟨⟨h, Nat.le_refl _, Nat.le_max_left ..⟩, ⟨_, .outside, ?_⟩, fun _ => rfl⟩
  rw [hnone]
  exact ⟨Nat.le_refl _, Nat.le_refl _, .nil⟩

/-! ### Looking -/

/-- Reading on passes nothing. -/
theorem passedSince_readsOn (h : c.Settled) (hreads : c.ReadsOn ts c') :
    passedSince start c' = passedSince start c := by
  have hle : c.position ≤ c.buffer.toList.length := by simpa using h.position_le
  rw [passedSince, Cursor.passed, hreads.position_eq, hreads.buffer_eq,
    List.take_append_of_le_length hle]
  rfl

/-- Reading on keeps the tokens that were read. -/
theorem getElem?_readsOn (hreads : c.ReadsOn ts c') {i : Nat} (ht : c.buffer[i]? = some t) :
    c'.buffer[i]? = some t := by
  rw [← Array.getElem?_toList] at ht ⊢
  obtain ⟨hlt, -⟩ := List.getElem?_eq_some_iff.mp ht
  rwa [hreads.buffer_eq, List.getElem?_append_left hlt]

/-- A cursor that has looked at the current token or the one after it. -/
structure Looked (c c' : Cursor) : Prop where
  readsOn : ∃ ts, c.ReadsOn ts c'
  size_le : c'.buffer.size ≤ max c.buffer.size (c.position + 2)

/-- To look one place ahead at most is to look. -/
theorem looked_peekAhead {n : Nat} (hn : n ≤ 1) (c : Cursor) :
    Looked c (Cursor.peekAhead n c).2 := by
  have hreads := Cursor.reads_readTokens (c.position + n + 1 - c.buffer.size) c
  rw [Cursor.peekAhead_apply]
  generalize Cursor.readTokens (c.position + n + 1 - c.buffer.size) c = outcome at hreads
  cases hreads with
  | done hon _ _ hmost _ =>
    have hsize := hon.size_eq
    exact ⟨⟨_, hon⟩, by dsimp only; omega⟩
  | failed hon _ _ _ hmost _ _ =>
    have hsize := hon.size_eq
    exact ⟨⟨_, hon⟩, by dsimp only; omega⟩

/-- Looking keeps a cursor within its range. -/
theorem Ranges.looked (h : Ranges start c) (hlooked : Looked c c') : Ranges start c' := by
  obtain ⟨⟨ts, hreads⟩, hsize⟩ := hlooked
  have hle := h.size_le
  refine ⟨h.settled.readsOn hreads, ?_, ?_⟩
  · rw [hreads.position_eq]
    exact h.le_position
  · rw [hreads.position_eq]
    omega

/-- A lookahead that may end may still do so once it has looked. -/
theorem Stopped.looked (h : Stopped start c) (hlooked : Looked c c') : Stopped start c' where
  toRanges := h.toRanges.looked hlooked
  isFree := by
    obtain ⟨⟨ts, hreads⟩, -⟩ := hlooked
    rw [passedSince_readsOn h.settled hreads]
    exact h.isFree

/-- Reading on leaves what was begun as it is. -/
theorem Begun.readsOn {n : Nat} (h : Begun start c n ts) (hc : c.Settled) {us : List Token}
    (hreads : c.ReadsOn us c') : Begun start c' n ts := by
  cases h with
  | outside =>
    rw [← passedSince_readsOn hc hreads]
    exact .outside
  | inside ht hfree hend =>
    rw [← passedSince_readsOn hc hreads]
    refine .inside ?_ hfree hend
    rw [hreads.position_eq]
    exact getElem?_readsOn hreads ht

/-- Looking costs nothing. -/
theorem Thrifty.looked (h : Thrifty start whole σ c) (hlooked : Looked c c') :
    Thrifty start whole σ c' := by
  obtain ⟨ts, hbegun, hcounts⟩ := h.begun
  obtain ⟨us, hreads⟩ := hlooked.readsOn
  exact ⟨h.toRanges.looked hlooked, ⟨ts, hbegun.readsOn h.settled hreads, hcounts⟩, h.pending_eq⟩

/-! ### Passing -/

/-- The cursor after the current token. -/
def onto (c : Cursor) : Cursor := { c with position := c.position + 1 }

/-- A step passes the current token. -/
theorem passedSince_onto (h : Ranges start c) (ht : c.buffer[c.position]? = some t) :
    passedSince start (onto c) = passedSince start c ++ [t] := by
  have hlength : start.position ≤ c.passed.length := by
    rw [h.settled.length_passed]
    exact h.le_position
  rw [← Array.getElem?_toList] at ht
  have hpassed : (onto c).passed = c.passed ++ [t] := by
    rw [Cursor.passed, onto, List.take_add_one, ht]
    rfl
  rw [passedSince, hpassed, List.drop_append_of_le_length hlength]
  rfl

/-- A step over a token keeps a cursor within its range. -/
theorem Ranges.onto (h : Ranges start c) (ht : c.buffer[c.position]? = some t)
    (hend : t.isEnd = false) : Ranges start (onto c) := by
  have hsettled := h.settled.pastToken fun _ => ht
  rw [Cursor.pastToken, if_neg (by simp [hend])] at hsettled
  have hle := h.size_le
  refine ⟨hsettled, Nat.le_succ_of_le h.le_position, ?_⟩
  simp only [Lookahead.onto]
  omega

/-- After any token a lookahead may end. -/
theorem Thrifty.stopped_onto (h : Thrifty start whole σ c) (ht : c.buffer[c.position]? = some t)
    (hend : t.isEnd = false) : Stopped start (Lookahead.onto c) where
  toRanges := h.toRanges.onto ht hend
  isFree := by
    obtain ⟨ts, hbegun, -, -, haffordable⟩ := h.begun
    rw [passedSince_onto h.toRanges ht, List.dropLast_concat]
    exact haffordable.isFree_of_isPrefix hbegun.isPrefix

/-- A lookahead may go on after a free token, and after any token while its budget lasts. -/
theorem Thrifty.onto (h : Thrifty start whole σ c) (hpending : σ.pending = 0)
    (ht : c.buffer[c.position]? = some t) (hend : t.isEnd = false)
    (hmay : t.kind.isFree = true ∨ σ.consumed ≤ Limits.maxLookaheadTokens) :
    Thrifty start whole (onward σ) (Lookahead.onto c) := by
  obtain ⟨ts, hbegun, hlength, hweight, haffordable⟩ := h.begun
  rw [hpending] at hbegun hweight haffordable
  cases hbegun
  have hone := t.kind.one_le_weight
  refine ⟨h.toRanges.onto ht hend, ⟨_, .outside, ?_⟩, fun _ => rfl⟩
  rw [passedSince_onto h.toRanges ht]
  refine ⟨?_, ?_, ?_⟩
  · simpa [onward] using hlength
  · simp only [onward, weight_append, weight_singleton]
    omega
  · rcases hmay with hfree | hbudget
    · exact haffordable.append_free hfree (by simp only [onward]; omega)
    · exact .append_any hbudget hlength

/-- A lookahead may go on after the last `>` of a token. -/
theorem Thrifty.close (h : Thrifty start whole σ c) (hpending : σ.pending = 1) :
    (∃ t, c.buffer[c.position]? = some t ∧ t.isEnd = false) ∧
      Thrifty start whole (onward σ) (Lookahead.onto c) := by
  obtain ⟨ts, hbegun, hlength, hweight, haffordable⟩ := h.begun
  rw [hpending] at hbegun hweight haffordable
  cases hbegun with
  | inside ht hfree hend =>
    refine ⟨⟨_, ht, hend⟩, h.toRanges.onto ht hend, ⟨_, .outside, ?_⟩, fun _ => rfl⟩
    rw [passedSince_onto h.toRanges ht]
    exact ⟨Nat.le_succ_of_le hlength, hweight, haffordable⟩

/-- A lookahead may go on after a `>` of a token that has more of them. -/
theorem Thrifty.part (h : Thrifty start whole σ c) (hpending : 1 < σ.pending) :
    Thrifty start whole { σ with consumed := σ.consumed + 1, pending := σ.pending - 1 } c := by
  obtain ⟨ts, hbegun, hlength, hweight, haffordable⟩ := h.begun
  have hcount : σ.consumed + 1 + (σ.pending - 1) = σ.consumed + σ.pending := by omega
  refine ⟨h.toRanges, ⟨ts, ?_, Nat.le_succ_of_le hlength, ?_, ?_⟩, fun hwhole => ?_⟩
  · obtain ⟨n, hn⟩ : ∃ n, σ.pending = n + 2 := ⟨σ.pending - 2, by omega⟩
    rw [hn] at hbegun
    simp only [hn]
    cases hbegun with
    | inside ht hfree hend => exact .inside ht hfree hend
  · simpa only [hcount] using hweight
  · simpa only [hcount] using haffordable
  · have hnone := h.pending_eq hwhole
    omega

/-- A lookahead may go on after the first `>` of a token. -/
theorem Thrifty.openShift (h : Thrifty start False σ c) (hpending : σ.pending = 0)
    (ht : c.buffer[c.position]? = some t) (hfree : t.kind.isFree = true) {n : Nat}
    (hn : t.kind.weight = n + 2) :
    Thrifty start False { σ with consumed := σ.consumed + 1, pending := n + 1 } c := by
  obtain ⟨ts, hbegun, hlength, hweight, haffordable⟩ := h.begun
  rw [hpending] at hbegun hweight haffordable
  cases hbegun
  have hend : t.isEnd = false := by
    rw [Token.isEnd, beq_eq_false_iff_ne]
    intro hkind
    rw [hkind] at hn
    cases hn
  refine ⟨h.toRanges, ⟨_, .inside ht hfree hend, ?_, ?_, ?_⟩, False.elim⟩
  · simpa using hlength
  · simp only [weight_append, weight_singleton]
    omega
  · exact haffordable.append_free hfree (by simp only; omega)

end States

/-! ### Statements about lookaheads -/

/-- From states of a sort a lookahead comes to answers and states of a sort. Also where it
fails, it has passed only free tokens behind its budget, except perhaps for the last one. -/
def Meets {α : Type} (start : Cursor) (P : LookaheadState → Cursor → Prop) (w : Lookahead α)
    (Q : α → LookaheadState → Cursor → Prop) : Prop :=
  ∀ σ s, P σ s.cursor → match w σ s with
    | (.ok (a, σ'), s') => Q a σ' s'.cursor
    | (.error _, s') => Stopped start s'.cursor

namespace Meets

variable {α β : Type} {start : Cursor} {P P' : LookaheadState → Cursor → Prop}
  {Q : β → LookaheadState → Cursor → Prop} {R R' : α → LookaheadState → Cursor → Prop}
  {w : Lookahead α} {f : α → Lookahead β}

/-- A lookahead that does nothing meets whatever follows from where it starts. -/
theorem pure {a : α} (h : ∀ σ c, P σ c → R a σ c) : Meets start P (Pure.pure a) R :=
  fun σ s hP => h σ s.cursor hP

/-- Statements about lookaheads compose. -/
theorem bind (hw : Meets start P w R) (hf : ∀ a, Meets start (R a) (f a) Q) :
    Meets start P (w >>= f) Q := by
  intro σ s hP
  have hfirst := hw σ s hP
  rw [bind_eq, bind_apply]
  rcases hrun : w σ s with ⟨_ | ⟨a, σ'⟩, s'⟩
  · rw [hrun] at hfirst
    exact hfirst
  · rw [hrun] at hfirst
    exact hf a σ' s' hfirst

/-- A statement may start from more and promise less. -/
theorem mono (h : Meets start P w R) (hP : ∀ σ c, P' σ c → P σ c)
    (hR : ∀ a σ c, R a σ c → R' a σ c) : Meets start P' w R' := by
  intro σ s hP'
  have hw := h σ s (hP σ s.cursor hP')
  rcases hrun : w σ s with ⟨_ | ⟨a, σ'⟩, s'⟩
  · rw [hrun] at hw
    exact hw
  · rw [hrun] at hw
    exact hR a σ' s'.cursor hw

/-- A statement may promise less. -/
theorem weaken (h : Meets start P w R) (hR : ∀ a σ c, R a σ c → R' a σ c) :
    Meets start P w R' := h.mono (fun _ _ => id) hR

/-- A statement may start from more. -/
theorem strengthen (h : Meets start P w R) (hP : ∀ σ c, P' σ c → P σ c) :
    Meets start P' w R := h.mono hP fun _ _ _ => id

/-- A lookahead that depends on a condition is met branch by branch. -/
theorem ite {c : Prop} [Decidable c] {v : Lookahead α} (hw : c → Meets start P w R)
    (hv : ¬ c → Meets start P v R) : Meets start P (if c then w else v) R := by
  split
  · exact hw ‹_›
  · exact hv ‹_›

/-- What comes after a question depends on the answer. -/
theorem question {w : Lookahead Bool} {v u : Lookahead β}
    {R : Bool → LookaheadState → Cursor → Prop} (hw : Meets start P w R)
    (hyes : Meets start (R true) v Q) (hno : Meets start (R false) u Q) :
    Meets start P (w >>= fun found => if found = true then v else u) Q := by
  refine hw.bind fun found => ?_
  cases found with
  | true => exact hyes
  | false => exact hno

/-- A lookahead that gives up on "no" goes on from a "yes". -/
theorem demand {w : Lookahead Bool} {v u : Lookahead β}
    {R : Bool → LookaheadState → Cursor → Prop} (hw : Meets start P w R)
    (hno : Meets start (R false) v Q) (hyes : Meets start (R true) u Q) :
    Meets start P (w >>= fun found => if (!found) = true then v else u) Q := by
  refine hw.bind fun found => ?_
  cases found with
  | true => exact hyes
  | false => exact hno

/-- What holds before each step of a loop holds until it is done. -/
theorem loop {step : α → Lookahead (Step α β)} {I : α → LookaheadState → Cursor → Prop}
    (hstop : ∀ a σ c, I a σ c → Stopped start c)
    (hstep : ∀ a, Meets start (I a) (step a) fun
      | .again a => I a
      | .done b => Q b)
    (a : α) : Meets start (I a) (Lookahead.loop step a) Q := by
  have hloopFor (n : Nat) (a : α) : Meets start (I a) (loopFor step n a) Q := by
    induction n generalizing a with
    | zero =>
      intro σ s hI
      have hlooked := (hstop a σ s.cursor hI).looked (looked_peekAhead (Nat.zero_le 1) _)
      have hfail : loopFor step 0 a σ s =
          ((Parser.unexpected "end of input" : Parser β) >>= fun b => Pure.pure (b, σ)) s := rfl
      rw [hfail, bind_apply, Parser.unexpected, bind_apply, Parser.peek, Parser.read_apply]
      rcases hpeek : Cursor.peekAhead 0 s.cursor with ⟨_ | _, c⟩ <;> rw [hpeek] at hlooked <;>
        exact hlooked
    | succ n ih =>
      refine (hstep a).bind fun outcome => ?_
      cases outcome with
      | again next => exact ih next
      | done result => exact .pure fun _ _ => id
  exact fun σ s hI => hloopFor (Parser.loopBound s) a σ s hI

/-- A loop of which each step may be followed by another one. -/
theorem rounds {whole : Prop} {step : α → Lookahead (Step α β)}
    (hstep : ∀ a, Meets start (Thrifty start whole) (step a) fun
      | .again _ => Thrifty start whole
      | .done b => Q b)
    (a : α) : Meets start (Thrifty start whole) (Lookahead.loop step a) Q :=
  loop (I := fun _ => Thrifty start whole) (fun _ _ _ h => h.stopped) hstep a

end Meets

/-! ### Single tokens -/

/-- The kind so many places ahead of a lookahead, unless it is the end of the text. -/
structure At (n : Nat) (kind : TokenKind) (σ : LookaheadState) (c : Cursor) : Prop where
  outside : σ.pending = 0 → kind ≠ .endOfInput →
    ∃ t, c.buffer[c.position + n]? = some t ∧ t.kind = kind
  inside : n < σ.pending → kind = .greater

section Tokens

variable {start : Cursor} {whole : Prop} {kind : TokenKind}
  {P : LookaheadState → Cursor → Prop}

/-- What holds of states in which a lookahead may end, and is kept by looking ahead. -/
structure Lasting (start : Cursor) (P : LookaheadState → Cursor → Prop) : Prop where
  stopped : ∀ {σ c}, P σ c → Stopped start c
  looked : ∀ {σ c c'}, P σ c → Looked c c' → P σ c'

/-- To be within the budget lasts while a lookahead only looks. -/
theorem Thrifty.lasting : Lasting start (Thrifty start whole) := ⟨stopped, looked⟩

/-- Looking again finds the same kind at the same place. -/
theorem At.looked {n : Nat} {σ : LookaheadState} {c c' : Cursor} (h : At n kind σ c)
    (hlooked : Looked c c') : At n kind σ c' where
  outside hpending hkind := by
    obtain ⟨t, ht, rfl⟩ := h.outside hpending hkind
    obtain ⟨ts, hreads⟩ := hlooked.readsOn
    refine ⟨t, ?_, rfl⟩
    rw [hreads.position_eq]
    exact getElem?_readsOn hreads ht
  inside := h.inside

/-- What lasts does so together with a kind ahead. -/
theorem Lasting.at (h : Lasting start P) {n : Nat} :
    Lasting start fun σ c => P σ c ∧ At n kind σ c where
  stopped hP := h.stopped hP.1
  looked hP hlooked := ⟨h.looked hP.1 hlooked, hP.2.looked hlooked⟩

/-- A look at the tokens themselves. -/
theorem Lasting.peekKind (hP : Lasting start P) {σ : LookaheadState} {s : ParserState}
    (h : P σ s.cursor) {k : Nat} (hk : k ≤ 1) :
    match Parser.peekKind k s with
    | (.ok kind, s') => P σ s'.cursor ∧ (kind ≠ .endOfInput →
        ∃ t, s'.cursor.buffer[s'.cursor.position + k]? = some t ∧ t.kind = kind)
    | (.error _, s') => Stopped start s'.cursor := by
  have hlooked := looked_peekAhead hk s.cursor
  have hsettled := (hP.stopped h).settled
  rw [Parser.peekKind, bind_apply, Parser.peek, Parser.read_apply]
  rcases hpeek : Cursor.peekAhead k s.cursor with ⟨_ | t, c⟩ <;> rw [hpeek] at hlooked
  · exact (hP.stopped h).looked hlooked
  · obtain ⟨hposition, hfound⟩ := (hsettled.peekAhead k).2 t c hpeek
    refine ⟨hP.looked h hlooked, fun hkind => ⟨t, ?_, rfl⟩⟩
    rw [hposition]
    exact hfound (by simpa [Token.isEnd] using hkind)

/-- A lookahead that looks at a kind knows it afterwards. -/
theorem meets_kindAt {n : Nat} (hn : n ≤ 1) (hP : Lasting start P) :
    Meets start P (kindAt n) fun kind σ c => P σ c ∧ At n kind σ c := by
  intro σ s h
  rw [kindAt_eq]
  by_cases hpending : σ.pending = 0
  · have hpeek := hP.peekKind h hn
    rw [if_pos hpending, bind_apply]
    rcases hrun : Parser.peekKind n s with ⟨_ | kind, s'⟩ <;> rw [hrun] at hpeek
    · exact hpeek
    · exact ⟨hpeek.1, fun _ => hpeek.2, fun hlt => by omega⟩
  rw [if_neg hpending]
  by_cases hinside : n < σ.pending
  · rw [if_pos hinside]
    exact ⟨h, fun hnone => absurd hnone hpending, fun _ => rfl⟩
  · have hpeek := hP.peekKind h (k := n - σ.pending + 1) (by omega)
    rw [if_neg hinside, bind_apply]
    rcases hrun : Parser.peekKind (n - σ.pending + 1) s with ⟨_ | kind, s'⟩ <;>
      rw [hrun] at hpeek
    · exact hpeek
    · exact ⟨hpeek.1, fun hnone => absurd hnone hpending, fun hlt => absurd hlt hinside⟩

/-- A lookahead that looks at the current kind knows it afterwards. -/
theorem meets_currentKind (hP : Lasting start P) :
    Meets start P currentKind fun kind σ c => P σ c ∧ At 0 kind σ c :=
  meets_kindAt (Nat.zero_le 1) hP

/-- A kind that was compared with another one is known if they are the same. -/
theorem Meets.equals {n : Nat} {w : Lookahead TokenKind}
    (hw : Meets start P w fun kind σ c => P σ c ∧ At n kind σ c) (kind : TokenKind) :
    Meets start P (w >>= fun found => Pure.pure (found == kind)) fun found =>
      bif found then fun σ c => P σ c ∧ At n kind σ c else P := by
  refine hw.bind fun found => .pure fun σ c h => ?_
  by_cases heq : found = kind
  · rw [heq] at h ⊢
    simpa using h
  · rw [beq_eq_false_iff_ne.mpr heq]
    exact h.1

/-- Where a check says "yes", the current kind is known. -/
theorem meets_check (hP : Lasting start P) (kind : TokenKind) :
    Meets start P (check kind) fun found =>
      bif found then fun σ c => P σ c ∧ At 0 kind σ c else P :=
  (meets_currentKind hP).equals kind

/-- Where a check of two kinds says "yes", both are known. -/
theorem meets_checkPair (hP : Lasting start P) (first second : TokenKind) :
    Meets start P (checkPair first second) fun found =>
      bif found then fun σ c => (P σ c ∧ At 0 first σ c) ∧ At 1 second σ c else P := by
  unfold checkPair
  refine (meets_check hP first).question ?_ (.pure fun _ _ => id)
  refine ((meets_kindAt (Nat.le_refl 1) hP.at).equals second).weaken fun found σ c h => ?_
  cases found with
  | true => exact h
  | false => exact h.1

/-- A look at the next token may decide about what is already known. -/
theorem meets_next (hP : Lasting start P) {P' : LookaheadState → Cursor → Prop}
    (h : ∀ σ c, P σ c → P' σ c) (g : TokenKind → Bool) :
    Meets start P (kindAt 1 >>= fun kind => pure (g kind)) fun found =>
      bif found then P else P' := by
  refine (meets_kindAt (Nat.le_refl 1) hP).bind fun kind => .pure fun σ c hσ => ?_
  cases g kind with
  | true => exact hσ.1
  | false => exact h σ c hσ.1

/-- What a lookahead sees first, it stands at. -/
theorem At.exists_token {σ : LookaheadState} {c : Cursor} (h : At 0 kind σ c)
    (hkind : kind ≠ .endOfInput) :
    (∃ n, σ.pending = n + 1 ∧ kind = .greater) ∨
      σ.pending = 0 ∧ ∃ t, c.buffer[c.position]? = some t ∧ t.kind = kind ∧ t.isEnd = false := by
  rcases hpending : σ.pending with _ | n
  · obtain ⟨t, ht, rfl⟩ := h.outside hpending hkind
    exact .inr ⟨rfl, t, ht, rfl, by simpa [Token.isEnd] using hkind⟩
  · exact .inl ⟨n, rfl, h.inside (by omega)⟩

/-- The last part of a token that is passed takes the cursor behind it. -/
theorem bump_onto {σ : LookaheadState} {s : ParserState} {t : Token} (hpending : σ.pending ≤ 1)
    (ht : s.cursor.buffer[s.cursor.position]? = some t) (hend : t.isEnd = false) :
    bump σ s = (.ok ((), onward σ), { s with cursor := onto s.cursor }) := by
  have hnone : σ.pending - 1 = 0 := by omega
  rw [bump_eq, if_pos hpending, bind_apply, Parser.advance, Parser.read_apply,
    Cursor.advance_apply, Cursor.peekAhead_zero ht]
  simp only [Cursor.pastToken, hend, Bool.false_eq_true, if_false, hnone]
  rfl

/-- A lookahead may pass a free token, or any token while its budget lasts. -/
theorem meets_bump (hkind : kind ≠ .endOfInput) :
    Meets start (fun σ c => (Thrifty start whole σ c ∧ At 0 kind σ c) ∧
        (kind.isFree = true ∨ σ.consumed ≤ Limits.maxLookaheadTokens))
      bump fun _ => Thrifty start whole := by
  rintro σ s ⟨⟨h, hat⟩, hmay⟩
  rcases hat.exists_token hkind with ⟨n, hpending, -⟩ | ⟨hpending, t, ht, rfl, hend⟩
  · rcases Nat.lt_or_ge 1 σ.pending with hparts | hlast
    · rw [bump_eq, if_neg (by omega)]
      exact h.part hparts
    · obtain ⟨⟨t, ht, hend⟩, hclosed⟩ := h.close (by omega)
      rw [bump_onto hlast ht hend]
      exact hclosed
  · rw [bump_onto (by omega) ht hend]
    exact h.onto hpending ht hend hmay

/-- A free token may be passed without asking. -/
theorem meets_bump_free (kind : TokenKind) (hfree : kind.isFree = true) :
    Meets start (fun σ c => Thrifty start whole σ c ∧ At 0 kind σ c) bump
      fun _ => Thrifty start whole := by
  have hkind : kind ≠ .endOfInput := by
    rintro rfl
    cases hfree
  exact (meets_bump hkind).strengthen fun _ _ h => ⟨h, .inl hfree⟩

/-- After the first token of a pair a lookahead stands at the second one. -/
theorem meets_bump_first (first second : TokenKind) (hfirst : first.isFree = true)
    (hgreater : first ≠ .greater) :
    Meets start (fun σ c => (Thrifty start whole σ c ∧ At 0 first σ c) ∧ At 1 second σ c) bump
      fun _ σ c => Thrifty start whole σ c ∧ At 0 second σ c := by
  have hend : first ≠ .endOfInput := by
    rintro rfl
    cases hfirst
  rintro σ s ⟨⟨h, hat⟩, hnext⟩
  rcases hat.exists_token hend with ⟨n, -, rfl⟩ | ⟨hpending, t, ht, rfl, hopen⟩
  · exact absurd rfl hgreater
  · rw [bump_onto (by omega) ht hopen]
    refine ⟨h.onto hpending ht hopen (.inl hfirst), fun _ => hnext.outside hpending, ?_⟩
    exact fun hlt => absurd hlt (Nat.not_lt_zero 0)

/-- A lookahead that may end, and that may go on if its budget is not used up. -/
structure Strained (start : Cursor) (whole : Prop) (σ : LookaheadState) (c : Cursor) : Prop where
  stopped : Stopped start c
  thrifty : σ.consumed ≤ Limits.maxLookaheadTokens → Thrifty start whole σ c

/-- A lookahead that may go on may do so in particular where its budget lasts. -/
theorem Thrifty.strained {σ : LookaheadState} {c : Cursor} (h : Thrifty start whole σ c) :
    Strained start whole σ c := ⟨h.stopped, fun _ => h⟩

/-- A lookahead may pass any token if it asks for its budget afterwards. -/
theorem meets_bump_strained (hkind : kind ≠ .endOfInput) :
    Meets start (fun σ c => Thrifty start whole σ c ∧ At 0 kind σ c) bump
      fun _ => Strained start whole := by
  rintro σ s ⟨h, hat⟩
  by_cases hmay : kind.isFree = true ∨ σ.consumed ≤ Limits.maxLookaheadTokens
  · have hbump := meets_bump hkind σ s ⟨⟨h, hat⟩, hmay⟩
    rcases hrun : bump σ s with ⟨_ | _, s'⟩ <;> rw [hrun] at hbump
    · exact hbump
    · exact hbump.strained
  · rcases hat.exists_token hkind with ⟨n, hpending, rfl⟩ | ⟨hpending, t, ht, rfl, hend⟩
    · exact absurd (.inl rfl) hmay
    · rw [bump_onto (by omega) ht hend]
      refine ⟨h.stopped_onto ht hend, fun hbudget => ?_⟩
      simp only [onward] at hbudget
      omega

/-- A token that was eaten leaves a lookahead that may go on within its budget only. -/
theorem meets_eat (kind : TokenKind) (hkind : kind ≠ .endOfInput) :
    Meets start (Thrifty start whole) (eat kind) fun found =>
      bif found then Strained start whole else Thrifty start whole :=
  (meets_check Thrifty.lasting kind).question
    ((meets_bump_strained hkind).bind fun _ => .pure fun _ _ => id) (.pure fun _ _ => id)

/-- A free token may be eaten without asking. -/
theorem meets_eat_free (kind : TokenKind) (hfree : kind.isFree = true) :
    Meets start (Thrifty start whole) (eat kind) fun _ => Thrifty start whole :=
  (meets_check Thrifty.lasting kind).question
    ((meets_bump_free kind hfree).bind fun _ => .pure fun _ _ => id) (.pure fun _ _ => id)

/-- A budget that is not used up leaves something to spend. -/
theorem meets_exhausted :
    Meets start P exhausted fun found =>
      bif found then P else fun σ c => P σ c ∧ σ.consumed ≤ Limits.maxLookaheadTokens := by
  intro σ s h
  have hrun : exhausted σ s =
      (.ok (decide (Limits.maxLookaheadTokens < σ.consumed), σ), s) := rfl
  rw [hrun]
  by_cases hlt : Limits.maxLookaheadTokens < σ.consumed
  · simpa [hlt] using h
  · simpa [hlt] using ⟨h, Nat.le_of_not_lt hlt⟩

/-- A change of anything but the count is not felt. -/
theorem meets_modify {f : LookaheadState → LookaheadState}
    (hconsumed : ∀ σ, (f σ).consumed = σ.consumed) (hpending : ∀ σ, (f σ).pending = σ.pending) :
    Meets start (Thrifty start whole) (modify f : Lookahead PUnit) fun _ => Thrifty start whole :=
  fun σ _ h => h.congr (hconsumed σ) (hpending σ)

/-- The first `>` of several in one token may be passed without asking. -/
theorem meets_openShift (hkind : kind.isFree = true) {n : Nat} (hn : kind.weight = n + 2) :
    Meets start (fun σ c => Thrifty start False σ c ∧ At 0 kind σ c) (openShift (n + 1))
      fun _ => Thrifty start False := by
  rintro σ s ⟨h, hat⟩
  have hend : kind ≠ .endOfInput := by
    rintro rfl
    cases hn
  rcases hat.exists_token hend with ⟨m, -, rfl⟩ | ⟨hpending, t, ht, rfl, -⟩
  · cases hn
  · exact h.openShift hpending ht hkind hn

/-- A closing angle may be passed without asking, also as a part of a token. -/
theorem meets_bumpClosingAngle :
    Meets start (Thrifty start False) bumpClosingAngle fun _ => Thrifty start False := by
  unfold bumpClosingAngle
  refine (meets_currentKind Thrifty.lasting).bind fun kind => ?_
  split
  · exact (meets_bump_free .greater rfl).bind fun _ => .pure fun _ _ => id
  · exact (meets_openShift rfl rfl).bind fun _ => .pure fun _ _ => id
  · exact (meets_openShift rfl rfl).bind fun _ => .pure fun _ _ => id
  · exact .pure fun _ _ h => h.1

end Tokens

end Lookahead

end JavaSyntax
