import JavaSyntax.Proofs.Syntax.Attempt
import Mathlib.Logic.Relation

/-!
# Balance of the parser's bookkeeping

A parse counts the productions that are open, keeps their names on a stack and remembers
whether arrows start lambdas. Productions that nest change all three and have to put them
back, also when they fail. This file proves that they do: no run of a production, however it
ends, changes the depth or the rule for arrows, and at no moment of it is the depth or the
stack beyond its limit.
-/

namespace JavaSyntax

open Work JavaSyntax.Parser

/-! ### Limits and balance -/

namespace ParserState

/-- The depth and the stack of contexts are within their limits. -/
structure InBounds (s : ParserState) : Prop where
  depth_le : s.depth ≤ Limits.maxParseDepth
  contexts_le : s.contexts.length ≤ Limits.maxContextStackDepth

/-- What was opened after a state is closed again in a later one. The names on the stack may
be others, since a full stack loses its oldest one, but it stays within its limit. -/
structure Balanced (s t : ParserState) : Prop where
  depth_eq : t.depth = s.depth
  lambdas_eq : t.lambdas = s.lambdas
  inBounds : s.InBounds → t.InBounds

variable {s t u : ParserState}

/-- Where nothing is opened nothing is to be closed. -/
theorem Balanced.refl (s : ParserState) : s.Balanced s := ⟨rfl, rfl, id⟩

/-- What is balanced may be followed by more of it. -/
theorem Balanced.trans (h : s.Balanced t) (h' : t.Balanced u) : s.Balanced u where
  depth_eq := h'.depth_eq.trans h.depth_eq
  lambdas_eq := h'.lambdas_eq.trans h.lambdas_eq
  inBounds hs := h'.inBounds (h.inBounds hs)

/-- Nothing but the cursor has changed. -/
theorem balanced_withCursor (s : ParserState) (c : Cursor) : s.Balanced { s with cursor := c } :=
  ⟨rfl, rfl, fun hs => ⟨hs.depth_le, hs.contexts_le⟩⟩

/-- A full stack loses its oldest name. -/
theorem length_contexts_pushContext_le (context : String) (s : ParserState) :
    (s.pushContext context).contexts.length ≤ Limits.maxContextStackDepth :=
  List.length_take_le _ _

/-- A name on the stack opens no production. -/
theorem depth_pushContext (context : String) (s : ParserState) :
    (s.pushContext context).depth = s.depth := by
  unfold pushContext
  dsimp only
  split <;> rfl

/-- A name on the stack does not change the rule for arrows. -/
theorem lambdas_pushContext (context : String) (s : ParserState) :
    (s.pushContext context).lambdas = s.lambdas := by
  unfold pushContext
  dsimp only
  split <;> rfl

/-- A context fits on the stack whatever is there, because the oldest one makes room. -/
theorem balanced_pushContext (context : String) (s : ParserState) :
    s.Balanced (s.pushContext context) where
  depth_eq := depth_pushContext context s
  lambdas_eq := lambdas_pushContext context s
  inBounds hs := by
    refine ⟨?_, length_contexts_pushContext_le context s⟩
    rw [depth_pushContext]
    exact hs.depth_le

/-- A stack with a name less is within its limit. -/
theorem InBounds.popContext (h : s.InBounds) : s.popContext.InBounds := by
  refine ⟨h.depth_le, ?_⟩
  have hle := h.contexts_le
  have hlength : s.popContext.contexts.length = s.contexts.length - 1 := List.length_tail
  omega

/-- A production that is closed leaves the limits as they are. -/
theorem InBounds.leave (h : s.InBounds) : s.leave.InBounds := by
  have hle := h.depth_le
  have hdepth : s.leave.depth = s.depth - 1 := rfl
  refine ⟨?_, h.popContext.contexts_le⟩
  omega

/-- A guarded production is only entered if there is room for one more. -/
theorem InBounds.entered (context : String) (hdepth : s.depth < Limits.maxParseDepth) :
    (entered context s).InBounds := by
  refine ⟨?_, length_contexts_pushContext_le _ _⟩
  rw [Parser.entered, depth_pushContext]
  exact hdepth

/-- Leaving undoes entering, if everything in between was balanced. -/
theorem Balanced.leave {context : String} (h : (entered context s).Balanced t)
    (hdepth : s.depth < Limits.maxParseDepth) : s.Balanced t.leave where
  depth_eq := by
    have hinside : t.depth = s.depth + 1 := by
      rw [h.depth_eq, Parser.entered, depth_pushContext]
    have hleave : t.leave.depth = t.depth - 1 := rfl
    omega
  lambdas_eq := by
    have hinside : t.lambdas = s.lambdas := by
      rw [h.lambdas_eq, Parser.entered, lambdas_pushContext]
    exact hinside
  inBounds _ := (h.inBounds (.entered context hdepth)).leave

end ParserState

/-! ### Moving forward -/

namespace Cursor

/-- Work that never moves a cursor back. -/
def Forward {α : Type} (x : Reading α) : Prop := ∀ c : Cursor, c.position ≤ (x c).2.position

/-- To look ahead does not move a cursor. -/
theorem position_peekAhead (n : Nat) (c : Cursor) : (peekAhead n c).2.position = c.position := by
  rw [peekAhead_apply]
  have hreads := reads_readTokens (c.position + n + 1 - c.buffer.size) c
  generalize readTokens (c.position + n + 1 - c.buffer.size) c = outcome at hreads
  cases hreads with
  | done hreads => exact hreads.position_eq
  | failed hreads => exact hreads.position_eq

/-- To look ahead does not go back. -/
theorem forward_peekAhead (n : Nat) : Forward (peekAhead n) := by
  intro c
  exact Nat.le_of_eq (position_peekAhead n c).symm

/-- To pass a token does not go back. -/
theorem forward_advance : Forward advance := by
  intro c
  have hposition := position_peekAhead 0 c
  rw [advance_apply]
  generalize peekAhead 0 c = outcome at hposition
  obtain ⟨e | t, c'⟩ := outcome
  · exact Nat.le_of_eq hposition.symm
  · unfold pastToken
    dsimp only at hposition ⊢
    split
    · omega
    · dsimp only
      omega

/-- To take a token apart does not go back. -/
theorem forward_splitGreater : Forward splitGreater := by
  intro c
  have hposition := position_peekAhead 0 c
  rw [splitGreater_apply]
  generalize peekAhead 0 c = outcome at hposition
  obtain ⟨e | t, c'⟩ := outcome
  · exact Nat.le_of_eq hposition.symm
  · dsimp only at hposition ⊢
    split
    · exact Nat.le_of_eq hposition.symm
    · cases t.kind.afterGreater? with
      | none => exact Nat.le_of_eq hposition.symm
      | some kind => exact Nat.le_of_eq hposition.symm

/-- To look for a closing angle does not go back. -/
theorem forward_closing? : Forward closing? := by
  intro c
  have hsplit := forward_splitGreater c
  rw [closing?, bind_apply]
  generalize splitGreater c = outcome at hsplit
  obtain ⟨e | found, c'⟩ := outcome
  · exact hsplit
  cases found with
  | false => exact hsplit
  | true =>
    have hadvance := forward_advance c'
    simp only [if_true, bind_apply]
    generalize advance c' = outcome at hadvance
    obtain ⟨e | t, c''⟩ := outcome
    · exact Nat.le_trans hsplit hadvance
    · exact Nat.le_trans hsplit hadvance

end Cursor

namespace Footing

variable {m m' : Footing} {c c' : Cursor}

/-- A footing that is at most at a position has its base there or before. -/
theorem AtMost.base_le (h : m.AtMost c.position) : m.base c ≤ c.position := by
  cases m with
  | free | looking => exact Nat.le_refl _
  | marked n | started n => exact h

/-- What does not end before the base is at the footing. -/
theorem atMost_of_base_le (h : m.base c ≤ c'.position) : m.AtMost c'.position := by
  cases m with
  | free | looking => trivial
  | marked n | started n => exact h

/-- A base does not go back as long as a cursor stays behind it. -/
theorem base_le_base (h : m.base c ≤ c'.position) : m.base c ≤ m.base c' := by
  cases m with
  | free | looking => exact h
  | marked n | started n => exact Nat.le_refl _

/-- Whoever relies on less goes back no further. -/
theorem Covers.atMost (h : m.Covers m') (hm : m'.AtMost c.position) :
    m.AtMost c.position ∧ m'.base c ≤ m.base c := by
  cases m with
  | free | looking => exact ⟨trivial, hm.base_le⟩
  | marked n => rcases h with rfl | rfl <;> exact ⟨hm, Nat.le_refl _⟩
  | started n =>
    cases h
    exact ⟨hm, Nat.le_refl _⟩

end Footing

/-! ### Productions -/

/-- What the run of a production on a footing leaves behind: it does not end before the
position that the footing names, and everything that was opened is closed. -/
structure Footing.Closes (m : Footing) (s t : ParserState) : Prop where
  base_le : m.base s.cursor ≤ t.cursor.position
  balanced : s.Balanced t

namespace Parser

variable {α β : Type} {m : Footing} {p : Parser α}

/-- Work on the cursor opens nothing. -/
theorem balanced_read (x : Reading α) (s : ParserState) : s.Balanced (read x s).2 :=
  s.balanced_withCursor (x s.cursor).2

/-- Work on the cursor that does not go back closes what it opens. -/
theorem closes_read {x : Reading α} (hx : Cursor.Forward x) (s : ParserState) :
    Footing.looking.Closes s (read x s).2 := ⟨hx s.cursor, balanced_read x s⟩

/-- What does nothing closes what it opens. -/
theorem closes_refl {s : ParserState} (hm : m.AtMost s.cursor.position) : m.Closes s s :=
  ⟨hm.base_le, .refl s⟩

/-- One production after the other, where the second may not go back before the first. -/
theorem closes_bind (next : Footing) {f : α → Parser β} {s : ParserState}
    (hp : m.Closes s (p s).2)
    (hf : ∀ a s', m.base s.cursor ≤ s'.cursor.position → next.Closes s' (f a s').2 ∧
      m.base s.cursor ≤ next.base s'.cursor) : m.Closes s ((p >>= f) s).2 := by
  rw [bind_apply]
  generalize p s = outcome at hp
  obtain ⟨e | a, s'⟩ := outcome
  · exact hp
  · obtain ⟨hclose, hle⟩ := hf a s' hp.base_le
    exact ⟨Nat.le_trans hle hclose.base_le, hp.balanced.trans hclose.balanced⟩

/-- A guarded production closes what it opens. If there is no room for it, it opens nothing. -/
theorem closes_guarded (context : String)
    (hp : ∀ s : ParserState, m.AtMost s.cursor.position → m.Closes s (p s).2) (s : ParserState)
    (hm : m.AtMost s.cursor.position) : m.Closes s (guarded context p s).2 := by
  rw [guarded_apply]
  split
  · -- there is no room, and only the token that the error points at is read
    have hpeek := closes_read (Cursor.forward_peekAhead 0) s
    change Footing.looking.Closes s (peek 0 s).2 at hpeek
    generalize peek 0 s = outcome at hpeek
    have hle := Nat.le_trans hm.base_le hpeek.base_le
    obtain ⟨e | t, s'⟩ := outcome
    · exact ⟨hle, hpeek.balanced⟩
    · exact ⟨hle, hpeek.balanced.trans (s'.balanced_withCursor _)⟩
  · rename_i hdepth
    obtain ⟨hcursor, -⟩ := pushContext_eq context { s with depth := s.depth + 1 }
    change (entered context s).cursor = _ at hcursor
    have hinside := hp (entered context s) (by rw [hcursor]; exact hm)
    refine ⟨?_, hinside.balanced.leave (by omega)⟩
    have hle := hinside.base_le
    rw [hcursor] at hle
    cases m <;> exact hle

/-- The rule for arrows is put back after a production for which it was changed. -/
theorem closes_withLambdas (allowed : Bool)
    (hp : ∀ s : ParserState, m.AtMost s.cursor.position → m.Closes s (p s).2) (s : ParserState)
    (hm : m.AtMost s.cursor.position) : m.Closes s (withLambdas allowed p s).2 := by
  rw [withLambdas_apply]
  obtain ⟨hle, hinside⟩ := hp { s with lambdas := allowed } hm
  refine ⟨hle, hinside.depth_eq, rfl, fun hs => ?_⟩
  have hbounds := hinside.inBounds ⟨hs.depth_le, hs.contexts_le⟩
  exact ⟨hbounds.depth_le, hbounds.contexts_le⟩

end Parser

/-- A production closes what it opens, in whatever state it is run and however it ends. -/
theorem Production.closes {α : Type} {m : Footing} {p : Parser α} (h : Production m p)
    (s : ParserState) (hm : m.AtMost s.cursor.position) : m.Closes s (p s).2 := by
  -- the state is general, since what comes later starts where something else has stopped
  induction h generalizing s with
  | relax h hcovers ih =>
    obtain ⟨hm', hle⟩ := hcovers.atMost hm
    obtain ⟨hbase, hbalanced⟩ := ih s hm'
    exact ⟨Nat.le_trans hle hbase, hbalanced⟩
  | pure a | throw he => exact closes_refl hm
  | @bind _ _ m _ _ hne hp hf ihp ihf =>
    refine closes_bind m (ihp s hm) ?_
    intro a s' hle
    exact ⟨ihf a s' (Footing.atMost_of_base_le hle), Footing.base_le_base hle⟩
  | look hp hf ihp ihf =>
    refine closes_bind .free (ihp s trivial) ?_
    intro a s' hle
    exact ⟨ihf a s' trivial, hle⟩
  | observe hg hf ih => exact ih _ s hm
  | peek n => exact closes_read (Cursor.forward_peekAhead n) s
  | advance => exact closes_read Cursor.forward_advance s
  | closing? =>
    rw [Parser.closing?_eq]
    exact closes_read Cursor.forward_closing? s
  | note event => exact ⟨Nat.le_refl _, s.balanced_withCursor _⟩
  | guarded context h ih => exact closes_guarded context ih s hm
  | withLambdas allowed h ih => exact closes_withLambdas allowed ih s hm
  | start hp hf ihp ihf =>
    rw [position_bind_apply]
    have hclose := closes_bind (.started s.cursor.position) (ihp s trivial)
      fun a s' hle => ⟨ihf _ a hm s' hle, Nat.le_refl _⟩
    exact ⟨Nat.le_trans hm.base_le hclose.base_le, hclose.balanced⟩
  | mark hne hf ih =>
    rw [position_bind_apply]
    obtain ⟨hle, hbalanced⟩ := ih _ hm s (Nat.le_refl _)
    exact ⟨Nat.le_trans hm.base_le hle, hbalanced⟩
  | restore n => exact ⟨Nat.le_refl n, s.balanced_withCursor _⟩
  | goBack h ih =>
    exact ⟨Nat.le_refl _, (ih s hm).balanced.trans (ParserState.balanced_withCursor _ _)⟩
  | node tree h => exact closes_refl hm

/-! ### Moments of a run -/

/-- A part of a run that is taken as one step: a whole production, or work on the cursor. -/
inductive Parser.Steady {α : Type} (s : ParserState) : Parser α → Prop
  | production {m : Footing} {p : Parser α} (h : Production m p)
      (hm : m.AtMost s.cursor.position) : Steady s p
  | read (x : Reading α) : Steady s (read x)

/-- The states through which a run passes. A parser is put together from smaller ones, and
its run passes through the states of each of them. -/
inductive Parser.Passes : {α : Type} → Parser α → ParserState → ParserState → Prop
  | start {α : Type} (p : Parser α) (s : ParserState) : Passes p s s
  | finish {α : Type} {p : Parser α} {s : ParserState} (h : Steady s p) : Passes p s (p s).2
  | first {α β : Type} {p : Parser α} {f : α → Parser β} {s t : ParserState}
      (h : Passes p s t) : Passes (p >>= f) s t
  | later {α β : Type} {p : Parser α} {f : α → Parser β} {s s' t : ParserState} {a : α}
      (hp : Steady s p) (hok : p s = (.ok a, s')) (h : Passes (f a) s' t) : Passes (p >>= f) s t
  | ask {α : Type} {f : ParserState → Parser α} {s t : ParserState}
      (h : Passes (f s) s t) : Passes (get >>= f) s t
  /-- What is inside a guarded production runs one step deeper. -/
  | guarded {α : Type} {p : Parser α} {s t : ParserState} (context : String)
      (hdepth : s.depth < Limits.maxParseDepth) (h : Passes p (entered context s) t) :
      Passes (guarded context p) s t
  | withLambdas {α : Type} {p : Parser α} {s t : ParserState} (allowed : Bool)
      (h : Passes p { s with lambdas := allowed } t) : Passes (withLambdas allowed p) s t
  | goBack {α : Type} {p : Parser α} {s t : ParserState} (n : Nat) (h : Passes p s t) :
      Passes (andThen (·.restorePosition n) p) s t

/-- A part of a run that is taken as one step is balanced. -/
theorem Parser.Steady.balanced {α : Type} {p : Parser α} {s : ParserState} (h : Steady s p) :
    s.Balanced (p s).2 := by
  cases h with
  | production h hm => exact (h.closes s hm).balanced
  | read x => exact balanced_read x s

/-- A run that starts within the limits never leaves them. -/
theorem Parser.Passes.inBounds {α : Type} {p : Parser α} {s t : ParserState} (h : Passes p s t)
    (hs : s.InBounds) : t.InBounds := by
  induction h with
  | start p s => exact hs
  | finish hp => exact hp.balanced.inBounds hs
  | first h ih => exact ih hs
  | later hp hok h ih =>
    have hbalanced := hp.balanced
    rw [hok] at hbalanced
    exact ih (hbalanced.inBounds hs)
  | ask h ih => exact ih hs
  | guarded context hdepth h ih => exact ih (.entered context hdepth)
  | withLambdas allowed h ih => exact ih ⟨hs.depth_le, hs.contexts_le⟩
  | goBack n h ih => exact ih hs

/-! ### Parsers in use -/

/-- The states into which a parser can be brought from outside, with the checkpoints that
were taken on the way. Besides running productions, trying them and using the entry points,
one can open and close productions, put contexts on the stack, change the rule for arrows
and go back, all in any order. -/
inductive ParserState.Driven : List Checkpoint → ParserState → Prop
  | start (text : String) (lexical : LexicalPreferences) (preferences : SyntaxPreferences) :
      Driven [] (ofText text lexical preferences)
  | production {marks : List Checkpoint} {s : ParserState} {α : Type} {m : Footing}
      {p : Parser α} (hp : Production m p) (hm : m.AtMost s.cursor.position)
      (h : Driven marks s) : Driven marks (p s).2
  | attempt {marks : List Checkpoint} {s : ParserState} {α : Type} {p : Parser α}
      (hp : Production .free p) (h : Driven marks s) : Driven marks (attempt p s).2
  | entry {marks : List Checkpoint} {s : ParserState} {α : Type} {p : Parser α} (name : String)
      (hp : Production .free p) (h : Driven marks s) : Driven marks (entry name p s).2
  | enter {marks : List Checkpoint} {s : ParserState} (context : String) (h : Driven marks s) :
      Driven marks (enter context s).2
  | leave {marks : List Checkpoint} {s : ParserState} (h : Driven marks s) : Driven marks s.leave
  | setLambdas {marks : List Checkpoint} {s : ParserState} (allowed : Bool)
      (h : Driven marks s) : Driven marks (setLambdas allowed s).2
  | pushContext {marks : List Checkpoint} {s : ParserState} (context : String)
      (h : Driven marks s) : Driven marks (s.pushContext context)
  | popContext {marks : List Checkpoint} {s : ParserState} (h : Driven marks s) :
      Driven marks s.popContext
  | restore {marks : List Checkpoint} {s : ParserState} (n : Nat) (h : Driven marks s) :
      Driven marks (s.restorePosition n)
  | checkpoint {marks : List Checkpoint} {s : ParserState} (h : Driven marks s) :
      Driven (s.checkpoint :: marks) s
  | rollback {marks : List Checkpoint} {s : ParserState} {mark : Checkpoint}
      (h : Driven marks s) (hmark : mark ∈ marks) : Driven marks (s.rollback mark)

/-- A checkpoint that was taken within the limits. -/
structure Checkpoint.InBounds (mark : Checkpoint) : Prop where
  depth_le : mark.depth ≤ Limits.maxParseDepth
  contexts_le : mark.contexts.length ≤ Limits.maxContextStackDepth

namespace ParserState

variable {α : Type} {p : Parser α} {s t : ParserState}

/-- An attempt is balanced: if it fails, it goes back to a checkpoint at its start. -/
theorem balanced_attempt (hp : Production .free p) (s : ParserState) :
    s.Balanced (Parser.attempt p s).2 := by
  have hbalanced := (hp.closes s trivial).balanced
  rw [attempt_apply]
  generalize p s = outcome at hbalanced
  obtain ⟨e | a, s'⟩ := outcome
  · exact ⟨rfl, rfl, fun hs => ⟨hs.depth_le, hs.contexts_le⟩⟩
  · exact hbalanced

/-- An entry point leaves no production open, whatever it comes to. -/
theorem settled_entry (name : String) (p : Parser α) (s : ParserState) :
    (Parser.entry name p s).2.depth = 0 ∧ (Parser.entry name p s).2.lambdas = true ∧
      (Parser.entry name p s).2.contexts = [] := by
  rw [entry_apply]
  exact ⟨rfl, rfl, rfl⟩

/-- Whoever enters a production from outside is stopped by the same limit. -/
theorem InBounds.enter (h : s.InBounds) (context : String) :
    (Parser.enter context s).2.InBounds := by
  unfold Parser.enter
  rw [bind_apply, get_apply]
  dsimp only
  by_cases hdepth : Limits.maxParseDepth ≤ s.depth
  · have hpeek := (balanced_read (Cursor.peekAhead 0) s).inBounds h
    change (peek 0 s).2.InBounds at hpeek
    simp only [if_pos hdepth, bind_apply]
    generalize peek 0 s = outcome at hpeek
    obtain ⟨e | t, s'⟩ := outcome
    · exact hpeek
    · exact (s'.balanced_withCursor _).inBounds hpeek
  · simp only [if_neg hdepth]
    exact .entered context (by omega)

/-- However a parser is used, it stays within its limits, and so do its checkpoints. -/
theorem Driven.inBounds {marks : List Checkpoint} (h : s.Driven marks) :
    s.InBounds ∧ ∀ mark ∈ marks, mark.InBounds := by
  induction h with
  | start text lexical preferences => exact ⟨⟨Nat.zero_le _, Nat.zero_le _⟩, nofun⟩
  | production hp hm h ih => exact ⟨(hp.closes _ hm).balanced.inBounds ih.1, ih.2⟩
  | attempt hp h ih => exact ⟨(balanced_attempt hp _).inBounds ih.1, ih.2⟩
  | @entry marks s _ p name hp h ih =>
    obtain ⟨hdepth, -, hcontexts⟩ := settled_entry name p s
    refine ⟨⟨?_, ?_⟩, ih.2⟩
    · rw [hdepth]
      exact Nat.zero_le _
    · rw [hcontexts]
      exact Nat.zero_le _
  | enter context h ih => exact ⟨ih.1.enter context, ih.2⟩
  | leave h ih => exact ⟨ih.1.leave, ih.2⟩
  | setLambdas allowed h ih => exact ⟨⟨ih.1.depth_le, ih.1.contexts_le⟩, ih.2⟩
  | pushContext context h ih => exact ⟨(balanced_pushContext context _).inBounds ih.1, ih.2⟩
  | popContext h ih => exact ⟨ih.1.popContext, ih.2⟩
  | restore n h ih => exact ⟨(balanced_withCursor _ _).inBounds ih.1, ih.2⟩
  | checkpoint h ih =>
    refine ⟨ih.1, ?_⟩
    intro mark hmark
    rcases List.mem_cons.mp hmark with rfl | hmark
    · exact ⟨ih.1.depth_le, ih.1.contexts_le⟩
    · exact ih.2 mark hmark
  | rollback h hmark ih =>
    have hbounds := ih.2 _ hmark
    exact ⟨⟨hbounds.depth_le, hbounds.contexts_le⟩, ih.2⟩

/-! ### One parse after the other -/

/-- One parse: a production, an attempt, or an entry point of a parser that has no production
open. It may fail. -/
inductive Parses : ParserState → ParserState → Prop
  | production {s : ParserState} {α : Type} {m : Footing} {p : Parser α} (hp : Production m p)
      (hm : m.AtMost s.cursor.position) : Parses s (p s).2
  | attempt {s : ParserState} {α : Type} {p : Parser α} (hp : Production .free p) :
      Parses s (Parser.attempt p s).2
  | entry {s : ParserState} {α : Type} {p : Parser α} (name : String)
      (hp : Production .free p) (hdepth : s.depth = 0) (hlambdas : s.lambdas = true) :
      Parses s (Parser.entry name p s).2

/-- A parse leaves the depth and the rule for arrows as they were. -/
theorem Parses.same (h : Parses s t) : t.depth = s.depth ∧ t.lambdas = s.lambdas := by
  cases h with
  | production hp hm =>
    have hbalanced := (hp.closes s hm).balanced
    exact ⟨hbalanced.depth_eq, hbalanced.lambdas_eq⟩
  | attempt hp =>
    have hbalanced := balanced_attempt hp s
    exact ⟨hbalanced.depth_eq, hbalanced.lambdas_eq⟩
  | @entry _ p name hp hdepth hlambdas =>
    obtain ⟨hdepth', hlambdas', -⟩ := settled_entry name p s
    exact ⟨hdepth'.trans hdepth.symm, hlambdas'.trans hlambdas.symm⟩

/-- Any number of parses, failed or not, leave the depth and the rule for arrows to the next
one as they were. -/
theorem same_of_parses (h : Relation.ReflTransGen Parses s t) :
    t.depth = s.depth ∧ t.lambdas = s.lambdas := by
  induction h with
  | refl => exact ⟨rfl, rfl⟩
  | tail _ hlast ih =>
    obtain ⟨hdepth, hlambdas⟩ := hlast.same
    exact ⟨hdepth.trans ih.1, hlambdas.trans ih.2⟩

end ParserState

namespace Parser

variable {α : Type} {m : Footing} {p : Parser α} {s : ParserState} {marks : List Checkpoint}

/-- The run of a production changes neither the depth nor the rule for arrows, whether it
succeeds or fails, and whatever was done with the parser before. At every moment of it the
depth and the stack of contexts are within their limits. So each later parse starts as deep
as this one and with the same rule, and an entry point always leaves a parser without open
productions. -/
theorem bookkeeping_balanced (hp : Production m p) (hs : s.Driven marks)
    (hm : m.AtMost s.cursor.position) :
    ((p s).2.depth = s.depth ∧ (p s).2.lambdas = s.lambdas) ∧
      (∀ t, Passes p s t → t.depth ≤ Limits.maxParseDepth ∧
        t.contexts.length ≤ Limits.maxContextStackDepth) ∧
      (∀ t, Relation.ReflTransGen ParserState.Parses (p s).2 t →
        t.depth = s.depth ∧ t.lambdas = s.lambdas) ∧
      ∀ name, (entry name p s).2.depth = 0 ∧ (entry name p s).2.lambdas = true ∧
        (entry name p s).2.contexts = [] := by
  have hbalanced := (hp.closes s hm).balanced
  refine ⟨⟨hbalanced.depth_eq, hbalanced.lambdas_eq⟩, ?_, ?_, fun name => ?_⟩
  · intro t ht
    have hbounds := ht.inBounds hs.inBounds.1
    exact ⟨hbounds.depth_le, hbounds.contexts_le⟩
  · intro t ht
    obtain ⟨hdepth, hlambdas⟩ := ParserState.same_of_parses ht
    exact ⟨hdepth.trans hbalanced.depth_eq, hlambdas.trans hbalanced.lambdas_eq⟩
  · exact ParserState.settled_entry name p s

/-- Inside a statement, where arrows start no lambdas for once, the argument of a call is a bad
octal number. When the lexer has refused it, the parser is inside the statement again, with
the same rule for arrows. -/
theorem bookkeeping_balanced_in_refused_call :
    ∃ s t : ParserState, s.Driven [] ∧ Passes grammar.expression s t ∧
      (grammar.expression s).1.isOk = false ∧ t.depth = 2 ∧ t.depth ≤ Limits.maxParseDepth ∧
      (grammar.expression s).2.depth = 1 ∧ (grammar.expression s).2.lambdas = false := by
  have hstart := ParserState.Driven.start "f(09)" {} {}
  have hdriven := (hstart.enter "statement").setLambdas false
  generalize hs : (setLambdas false (enter "statement" (.ofText "f(09)" {} {})).2).2 = s at hdriven
  have hdepth : s.depth = 1 := by subst hs; decide +kernel
  have hlambdas : s.lambdas = false := by subst hs; decide +kernel
  have hfails : (grammar.expression s).1.isOk = false := by subst hs; decide +kernel
  have hpasses : Passes grammar.expression s (entered "expression" s) :=
    .guarded "expression" (by rw [hdepth]; decide) (.start _ _)
  have hinside : (entered "expression" s).depth = 2 := by
    rw [entered, ParserState.depth_pushContext, hdepth]
  have hp : Production .free grammar.expression := inferInstance
  obtain ⟨hsame, hmoments, -⟩ := bookkeeping_balanced hp hdriven trivial
  exact ⟨s, _, hdriven, hpasses, hfails, hinside, (hmoments _ hpasses).1,
    hsame.1.trans hdepth, hsame.2.trans hlambdas⟩

end Parser

end JavaSyntax
