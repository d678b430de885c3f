import JavaSyntax.Proofs.Token.Splits

/-!
# Going back exactly

A cursor can go back to a position that was saved, as long as it has not been before
that position in between. This file says what any sequence of looking ahead, advancing,
splitting, saving and going back keeps true of the cursor, and that going back is exact:
the position, the log of splits and every token that was known are again what they were.
-/

namespace JavaSyntax

namespace Cursor

variable {c c' mark : Cursor} {ts : List Token}

/-! ### Cursors in order -/

/-- The tokens of the buffer with all splits undone, from the latest to the oldest. -/
def wholes (c : Cursor) : List Token := (undoSplits c.buffer 0 c.splits).1.toList

/-- A cursor whose log of splits is in order and explains its buffer. -/
structure WellFormed (c : Cursor) : Prop where
  splitsTo : SplitsTo c.wholes c.splits c.buffer.toList
  ordered : Ordered c.splits
  le_position : ∀ entry ∈ c.splits, entry.1 ≤ c.position

/-- The log of splits determines the whole tokens. -/
theorem wholes_eq {tokens : List Token} (h : SplitsTo tokens c.splits c.buffer.toList)
    (hordered : Ordered c.splits) : c.wholes = tokens := by
  obtain ⟨buffer, hundo, hnone, -⟩ := h.undoSplits hordered 0
  have hfilter : c.splits.filter (·.1 < 0) = [] := by simp
  rw [Array.toArray_toList] at hundo
  rw [hfilter] at hnone
  rw [wholes, hundo, hnone.eq_of_nil]

/-- A log that is in order and explains the buffer by some tokens makes a cursor well-formed, with
these as its whole tokens. -/
theorem wellFormed_of {tokens : List Token} (h : SplitsTo tokens c.splits c.buffer.toList)
    (hordered : Ordered c.splits) (hle : ∀ entry ∈ c.splits, entry.1 ≤ c.position) :
    c.WellFormed ∧ c.wholes = tokens := by
  have hwholes := wholes_eq h hordered
  exact ⟨⟨hwholes ▸ h, hordered, hle⟩, hwholes⟩

/-- Reading on adds whole tokens. -/
theorem WellFormed.readsOn (h : c.WellFormed) (hreads : c.ReadsOn ts c') :
    c'.WellFormed ∧ c'.wholes = c.wholes ++ ts := by
  obtain ⟨hposition, hsplits, hbuffer, -⟩ := hreads
  apply wellFormed_of
  · rw [hsplits, hbuffer]
    exact h.splitsTo.append ts
  · rw [hsplits]
    exact h.ordered
  · rw [hsplits, hposition]
    exact h.le_position

/-- Passing a token keeps the log in order and the whole tokens as they are. -/
theorem WellFormed.pastToken (h : c.WellFormed) (t : Token) :
    (c.pastToken t).WellFormed ∧ (c.pastToken t).wholes = c.wholes := by
  unfold Cursor.pastToken
  split
  · exact ⟨h, rfl⟩
  · refine wellFormed_of (c := { c with position := c.position + 1 }) h.splitsTo h.ordered ?_
    intro entry hentry
    exact Nat.le_succ_of_le (h.le_position entry hentry)

/-- A token that can be split is no head of a split, so all splits are before it. -/
theorem WellFormed.lt_position (h : c.WellFormed) {t : Token} {kind : TokenKind}
    (ht : c.buffer[c.position]? = some t) (hkind : t.kind.afterGreater? = some kind) :
    ∀ entry ∈ c.splits, entry.1 < c.position := by
  obtain ⟨hsplitsTo, hordered, hle⟩ := h
  generalize c.splits = splits at hsplitsTo hordered hle
  intro entry hentry
  refine Nat.lt_of_le_of_ne (hle entry hentry) ?_
  intro hposition
  cases splits with
  | nil => cases hentry
  | cons latest older =>
    obtain ⟨hlatest, _⟩ := List.pairwise_cons.mp hordered
    rcases List.mem_cons.mp hentry with rfl | holder
    · have hhead := hsplitsTo.getElem?_latest
      rw [hposition, Array.getElem?_toList, ht] at hhead
      rw [Option.some.inj hhead] at hkind
      cases hkind
    · have hlt := hlatest entry holder
      have hle' := hle latest List.mem_cons_self
      omega

/-- A split is logged after all others. -/
theorem WellFormed.withSplit (h : c.WellFormed) {t : Token} {kind : TokenKind}
    (ht : c.buffer[c.position]? = some t) (hkind : t.kind.afterGreater? = some kind) :
    (c.withSplit t kind).WellFormed ∧ (c.withSplit t kind).wholes = c.wholes := by
  have hlt := h.lt_position ht hkind
  rw [← Array.getElem?_toList] at ht
  obtain ⟨buffer, hbuffer, hsplitsTo⟩ := h.splitsTo.replaceByParts ht hkind
  rw [Array.toArray_toList] at hbuffer
  apply wellFormed_of
  · simp only [Cursor.withSplit, hbuffer]
    exact hsplitsTo
  · exact List.pairwise_cons.mpr ⟨hlt, h.ordered⟩
  · intro entry hentry
    rcases List.mem_cons.mp hentry with rfl | hentry
    · exact Nat.le_refl _
    · exact h.le_position entry hentry

/-- Going back keeps the splits before the position, and the whole tokens. -/
theorem WellFormed.restore (h : c.WellFormed) (saved : Nat) :
    (c.restore saved).WellFormed ∧ (c.restore saved).wholes = c.wholes ∧
      (c.restore saved).splits = c.splits.filter (·.1 < saved) := by
  obtain ⟨buffer, hundo, hsplitsTo, -⟩ := h.splitsTo.undoSplits h.ordered saved
  rw [Array.toArray_toList] at hundo
  have hsplits : (c.restore saved).splits = c.splits.filter (·.1 < saved) := by
    simp only [Cursor.restore, hundo]
  have hbuffer : (c.restore saved).buffer.toList = buffer := by
    simp only [Cursor.restore, hundo]
  have hall : (c.restore saved).WellFormed ∧ (c.restore saved).wholes = c.wholes := by
    apply wellFormed_of
    · rw [hsplits, hbuffer]
      exact hsplitsTo
    · rw [hsplits]
      exact h.ordered.filter _
    · intro entry hentry
      rw [hsplits] at hentry
      have hlt := of_decide_eq_true (List.mem_filter.mp hentry).2
      exact Nat.le_of_lt hlt
  exact ⟨hall.1, hall.2, hsplits⟩

/-! ### Reading a text that can be split into tokens -/

/-- A cursor in order over the tokens that the lexer delivers from the start of a text. -/
structure Over (text : String) (preferences : LexicalPreferences) (c : Cursor) : Prop where
  wellFormed : c.WellFormed
  delivers : (Lexer.ofText text preferences).Delivers c.wholes c.lexer

/-- A cursor at the start of a text is over it. -/
theorem over_ofText (text : String) (preferences : LexicalPreferences) :
    (ofText text preferences).Over text preferences := by
  obtain ⟨hwellFormed, hwholes⟩ :=
    wellFormed_of (c := ofText text preferences) .whole .nil (by simp [ofText])
  refine ⟨hwellFormed, ?_⟩
  rw [hwholes]
  exact .nil _

/-- The end was reached exactly if it is the last of the whole tokens. -/
theorem WellFormed.reachedEnd_eq (h : c.WellFormed) :
    c.reachedEnd = c.wholes.getLast?.any Token.isEnd := by
  rw [← h.splitsTo.any_getLast?, reachedEnd, Array.getLast?_toList]

section Reading

variable {text : String} {preferences : LexicalPreferences}

/-- Reading what the lexer delivers keeps a cursor over its text. -/
theorem Over.readsOn (h : c.Over text preferences) (hreads : c.ReadsOn ts c')
    (hlexer : c.lexer.Delivers ts c'.lexer) (hend : c.reachedEnd = true → ts = []) :
    c'.Over text preferences := by
  obtain ⟨hwellFormed, hwholes⟩ := h.wellFormed.readsOn hreads
  refine ⟨hwellFormed, ?_⟩
  rw [hwholes]
  refine h.delivers.append hlexer ?_
  intro t ht htend
  apply hend
  rw [h.wellFormed.reachedEnd_eq]
  exact h.delivers.isEnd_getLast? ht htend

/-- Looking ahead never fails if the text can be split into tokens, and only reads on. -/
theorem Over.peekAhead (h : c.Over text preferences)
    (hok : (tokenize text preferences).failure = none) (n : Nat) :
    ∃ t c' ts, peekAhead n c = (.ok t, c') ∧ c.ReadsOn ts c' ∧ c'.Over text preferences ∧
      (t.isEnd = false → c'.buffer[c.position + n]? = some t) := by
  rw [peekAhead_apply]
  have hreads := reads_readTokens (c.position + n + 1 - c.buffer.size) c
  generalize readTokens (c.position + n + 1 - c.buffer.size) c = outcome at hreads
  cases hreads with
  | @done c' ts hreads hlexer hend hmost henough =>
    refine ⟨_, c', ts, rfl, hreads, h.readsOn hreads hlexer hend, getElem?_tokenAt ?_⟩
    refine henough.imp_left fun hlength => ?_
    have hsize := hreads.size_eq
    omega
  | @failed c' ts m e hreads hlexer hstart hend hmost herror hafter =>
    exfalso
    obtain ⟨hwellFormed, hwholes⟩ := h.wellFormed.readsOn hreads
    rw [h.wellFormed.reachedEnd_eq] at hstart
    rw [hwellFormed.reachedEnd_eq, hwholes] at hend
    have hall : (Lexer.ofText text preferences).Delivers (c.wholes ++ ts) m := by
      refine h.delivers.append hlexer ?_
      intro t ht htend
      rw [h.delivers.isEnd_of_getLast? hstart t ht] at htend
      cases htend
    exact hall.lex_ne_error (hall.isEnd_of_getLast? hend) hok e herror

end Reading

/-! ### Saved cursors -/

/-- A cursor can go back to what it was when its position was saved: what was split since
then was split at that position or after it, and what was read then is still there. -/
structure Recalls (c mark : Cursor) : Prop where
  position_le : mark.position ≤ c.position
  splitsTo : SplitsTo mark.wholes mark.splits mark.buffer.toList
  splits_eq : mark.splits = c.splits.filter (·.1 < mark.position)
  isPrefix : mark.wholes <+: c.wholes

/-- A cursor that does not stand at the first part of a split recalls itself. -/
theorem WellFormed.recalls (h : c.WellFormed) (hhead : ∀ entry ∈ c.splits, entry.1 ≠ c.position) :
    c.Recalls c where
  position_le := Nat.le_refl _
  splitsTo := h.splitsTo
  splits_eq := by
    symm
    rw [List.filter_eq_self]
    intro entry hentry
    have hle := h.le_position entry hentry
    have hne := hhead entry hentry
    simp only [decide_eq_true_eq]
    omega
  isPrefix := List.prefix_refl _

/-- Reading on does not take away what a cursor can go back to. -/
theorem Recalls.readsOn (h : c.Recalls mark) (hc : c.WellFormed) (hreads : c.ReadsOn ts c') :
    c'.Recalls mark where
  position_le := hreads.position_eq ▸ h.position_le
  splitsTo := h.splitsTo
  splits_eq := hreads.splits_eq ▸ h.splits_eq
  isPrefix := by
    rw [(hc.readsOn hreads).2]
    exact h.isPrefix.trans (List.prefix_append _ _)

/-- Passing a token does not take away what a cursor can go back to. -/
theorem Recalls.pastToken (h : c.Recalls mark) (hc : c.WellFormed) (t : Token) :
    (c.pastToken t).Recalls mark := by
  have hwholes := (hc.pastToken t).2
  unfold Cursor.pastToken at hwholes ⊢
  split
  · exact h
  · exact ⟨Nat.le_succ_of_le h.position_le, h.splitsTo, h.splits_eq, h.isPrefix⟩

/-- A split at the position does not take away what a cursor can go back to. -/
theorem Recalls.withSplit (h : c.Recalls mark) (hc : c.WellFormed) {t : Token} {kind : TokenKind}
    (ht : c.buffer[c.position]? = some t) (hkind : t.kind.afterGreater? = some kind) :
    (c.withSplit t kind).Recalls mark where
  position_le := h.position_le
  splitsTo := h.splitsTo
  splits_eq := by
    have hlater : ¬ c.position < mark.position := Nat.not_lt.mpr h.position_le
    rw [h.splits_eq, Cursor.withSplit, List.filter_cons_of_neg (by simpa using hlater)]
  isPrefix := by
    rw [(hc.withSplit ht hkind).2]
    exact h.isPrefix

/-- Going back to a position keeps what was saved at that position or before. -/
theorem Recalls.restore (h : c.Recalls mark) (hc : c.WellFormed) {saved : Nat}
    (hsaved : mark.position ≤ saved) : (c.restore saved).Recalls mark where
  position_le := hsaved
  splitsTo := h.splitsTo
  splits_eq := by
    rw [(hc.restore saved).2.2, List.filter_filter, h.splits_eq]
    apply List.filter_congr
    intro entry _
    by_cases hlt : entry.1 < mark.position
    · have hlt' : entry.1 < saved := by omega
      simp [hlt, hlt']
    · simp [hlt]
  isPrefix := by
    rw [(hc.restore saved).2.1]
    exact h.isPrefix

/-- Going back to a saved position restores what it was saved with. -/
theorem Recalls.restore_eq (h : c.Recalls mark) (hc : c.WellFormed) :
    (c.restore mark.position).position = mark.position ∧
      (c.restore mark.position).splits = mark.splits ∧
      mark.buffer.toList <+: (c.restore mark.position).buffer.toList := by
  obtain ⟨hrestored, hwholes, hsplits⟩ := hc.restore mark.position
  rw [← h.splits_eq] at hsplits
  obtain ⟨more, hmore⟩ := h.isPrefix
  have hsplitsTo := hrestored.splitsTo
  rw [hwholes, hsplits, ← hmore] at hsplitsTo
  exact ⟨rfl, hsplits, h.splitsTo.isPrefix hsplitsTo⟩

/-! ### Sequences of operations -/

/-- The cursors that can be reached from the start of a text, each with those that were
saved on the way and can still be gone back to. A position is saved unless the cursor
stands at the first part of a split; once the cursor goes back before a position, that
position is no longer saved. -/
inductive Reached (text : String) (preferences : LexicalPreferences) : List Cursor → Cursor → Prop
  | start : Reached text preferences [] (ofText text preferences)
  | peek {marks : List Cursor} {c : Cursor} (n : Nat) (h : Reached text preferences marks c) :
      Reached text preferences marks (peekAhead n c).2
  | advance {marks : List Cursor} {c : Cursor} (h : Reached text preferences marks c) :
      Reached text preferences marks (advance c).2
  | split {marks : List Cursor} {c : Cursor} (h : Reached text preferences marks c) :
      Reached text preferences marks (splitGreater c).2
  | save {marks : List Cursor} {c : Cursor} (h : Reached text preferences marks c)
      (hhead : ∀ entry ∈ c.splits, entry.1 ≠ c.position) : Reached text preferences (c :: marks) c
  | restore {marks : List Cursor} {c mark : Cursor} (h : Reached text preferences marks c)
      (hmark : mark ∈ marks) :
      Reached text preferences (marks.filter (·.position ≤ mark.position)) (c.restore mark.position)

/-- What holds of every cursor that is reached, with its saved cursors. -/
structure Tracked (text : String) (preferences : LexicalPreferences) (marks : List Cursor)
    (c : Cursor) : Prop where
  onText : c.Over text preferences
  recalls : ∀ mark ∈ marks, c.Recalls mark

section Tracked

variable {text : String} {preferences : LexicalPreferences} {marks : List Cursor}

/-- A tracked cursor reads on. -/
theorem Tracked.readsOn (h : c.Tracked text preferences marks) (hreads : c.ReadsOn ts c')
    (hover : c'.Over text preferences) : c'.Tracked text preferences marks where
  onText := hover
  recalls mark hmark := (h.recalls mark hmark).readsOn h.onText.wellFormed hreads

/-- A tracked cursor passes a token. -/
theorem Tracked.pastToken (h : c.Tracked text preferences marks) (t : Token) :
    (c.pastToken t).Tracked text preferences marks where
  onText := by
    obtain ⟨hwellFormed, hwholes⟩ := h.onText.wellFormed.pastToken t
    refine ⟨hwellFormed, ?_⟩
    rw [hwholes, lexer_pastToken]
    exact h.onText.delivers
  recalls mark hmark := (h.recalls mark hmark).pastToken h.onText.wellFormed t

/-- A tracked cursor splits the token at its position. -/
theorem Tracked.withSplit (h : c.Tracked text preferences marks) {t : Token} {kind : TokenKind}
    (ht : c.buffer[c.position]? = some t) (hkind : t.kind.afterGreater? = some kind) :
    (c.withSplit t kind).Tracked text preferences marks where
  onText := by
    obtain ⟨hwellFormed, hwholes⟩ := h.onText.wellFormed.withSplit ht hkind
    refine ⟨hwellFormed, ?_⟩
    rw [hwholes]
    exact h.onText.delivers
  recalls mark hmark := (h.recalls mark hmark).withSplit h.onText.wellFormed ht hkind

/-- A tracked cursor goes back, and forgets the places ahead of where it goes. -/
theorem Tracked.restore (h : c.Tracked text preferences marks) (saved : Nat) :
    (c.restore saved).Tracked text preferences (marks.filter (·.position ≤ saved)) where
  onText := by
    obtain ⟨hwellFormed, hwholes, _⟩ := h.onText.wellFormed.restore saved
    refine ⟨hwellFormed, ?_⟩
    rw [hwholes]
    exact h.onText.delivers
  recalls mark hmark := by
    obtain ⟨hmark, hle⟩ := List.mem_filter.mp hmark
    exact (h.recalls mark hmark).restore h.onText.wellFormed (of_decide_eq_true hle)

/-- Every cursor that is reached over a text that can be split into tokens is tracked. -/
theorem Reached.tracked (hok : (tokenize text preferences).failure = none)
    (h : Reached text preferences marks c) : c.Tracked text preferences marks := by
  induction h with
  | start => exact ⟨over_ofText text preferences, nofun⟩
  | @peek marks c n h ih =>
    obtain ⟨t, c', ts, hpeek, hreads, hover, -⟩ := ih.onText.peekAhead hok n
    rw [hpeek]
    exact ih.readsOn hreads hover
  | @advance marks c h ih =>
    obtain ⟨t, c', ts, hpeek, hreads, hover, -⟩ := ih.onText.peekAhead hok 0
    rw [advance_apply, hpeek]
    exact (ih.readsOn hreads hover).pastToken t
  | @split marks c h ih =>
    obtain ⟨t, c', ts, hpeek, hreads, hover, hfound⟩ := ih.onText.peekAhead hok 0
    have hc' := ih.readsOn hreads hover
    rw [splitGreater_apply, hpeek]
    dsimp only
    split
    · exact hc'
    cases hkind : t.kind.afterGreater? with
    | none => exact hc'
    | some kind =>
      have ht : c'.buffer[c'.position]? = some t := by
        rw [hreads.position_eq]
        exact hfound (Token.isEnd_of_afterGreater? hkind)
      exact hc'.withSplit ht hkind
  | @save marks c h hhead ih =>
    refine ⟨ih.onText, ?_⟩
    intro mark hmark
    rcases List.mem_cons.mp hmark with rfl | hmark
    · exact ih.onText.wellFormed.recalls hhead
    · exact ih.recalls mark hmark
  | @restore marks c mark h hmark ih => exact ih.restore mark.position

end Tracked

/-- The buffer covers the text that its whole tokens cover, without a gap. -/
theorem Over.tiles {text : String} {preferences : LexicalPreferences} {tokens : List Token}
    (h : c.Over text preferences) (htokens : (tokenize text preferences).toExcept = .ok tokens)
    (hread : c.wholes <+: tokens) :
    reconstruct c.buffer.toList = reconstruct c.wholes ∧
      (∃ rest, text = reconstruct c.buffer.toList ++ rest) ∧
      Tiles text 0 (c.buffer.toList.flatMap Token.fragments)
        (reconstruct c.buffer.toList).utf8ByteSize := by
  obtain ⟨htiles, htext⟩ := tiles_of_tokenize htokens
  obtain ⟨more, rfl⟩ := hread
  have hspelt := h.delivers.spelt
  have hsame := h.wellFormed.splitsTo.reconstruct_eq hspelt
  have hrest : text = reconstruct c.wholes ++ reconstruct more := by
    rw [← htext]
    simp [reconstruct]
  rw [List.flatMap_append] at htiles
  obtain ⟨stop, hwholes, -⟩ := htiles.exists_of_append
  have hbuffer := h.wellFormed.splitsTo.tiles hspelt hrest hwholes
  have hstop : stop = (reconstruct c.buffer.toList).utf8ByteSize := by
    simpa [joined_flatMap_fragments] using hbuffer.stop_eq
  exact ⟨hsame, ⟨_, hsame ▸ hrest⟩, hstop ▸ hbuffer⟩

/-- Whatever is done with a cursor over a text that can be split into tokens, its log of
splits stays in order and does not go beyond the position. Undoing the splits gives the
tokens of the text, as far as they were read, and the parts cover the same text without a
gap. Going back to a saved position makes the position, the log and every token that
had been read what they were then. -/
theorem reached_rewinds_exactly {text : String} {preferences : LexicalPreferences}
    {tokens : List Token} {marks : List Cursor} {c : Cursor}
    (htokens : (tokenize text preferences).toExcept = .ok tokens)
    (h : Reached text preferences marks c) :
    (Ordered c.splits ∧ ∀ entry ∈ c.splits, entry.1 ≤ c.position) ∧
      c.wholes <+: tokens ∧
      (reconstruct c.buffer.toList = reconstruct c.wholes ∧
        (∃ rest, text = reconstruct c.buffer.toList ++ rest) ∧
        Tiles text 0 (c.buffer.toList.flatMap Token.fragments)
          (reconstruct c.buffer.toList).utf8ByteSize) ∧
      ∀ mark ∈ marks,
        (c.restore mark.position).position = mark.position ∧
          (c.restore mark.position).splits = mark.splits ∧
          mark.buffer.toList <+: (c.restore mark.position).buffer.toList := by
  obtain ⟨hok, rfl⟩ := LexRun.toExcept_eq_ok.mp htokens
  have htracked := h.tracked hok
  have hwellFormed := htracked.onText.wellFormed
  have hread : c.wholes <+: (tokenize text preferences).tokens := by
    exact htracked.onText.delivers.isPrefix_runFrom [] []
  refine ⟨⟨hwellFormed.ordered, hwellFormed.le_position⟩, hread,
    htracked.onText.tiles htokens hread, ?_⟩
  intro mark hmark
  exact (htracked.recalls mark hmark).restore_eq hwellFormed

/-- Two splits of one token, the second of what remained of it, are undone together. -/
theorem reached_rewinds_nested_splits :
    ∃ mark c : Cursor, Reached "a >>> b" {} [mark] c ∧ mark.position = 1 ∧
      c.splits.map Prod.fst = [2, 1] ∧ c.wholes <+: (tokenize "a >>> b" {}).tokens ∧
      (c.restore 1).splits = mark.splits ∧
      mark.buffer.toList <+: (c.restore 1).buffer.toList := by
  have hfailure : (tokenize "a >>> b" {}).failure = none := by decide +kernel
  have hposition : (advance (ofText "a >>> b")).2.position = 1 := by decide +kernel
  have hsaved : Reached "a >>> b" {} [(advance (ofText "a >>> b")).2]
      (advance (ofText "a >>> b")).2 := .save (.advance .start) (by decide +kernel)
  have hreached := hsaved.split.advance.split
  obtain ⟨-, hwholes, -, hback⟩ :=
    reached_rewinds_exactly (LexRun.toExcept_eq_ok.mpr ⟨hfailure, rfl⟩) hreached
  obtain ⟨-, hsplits, hbuffer⟩ := hback _ List.mem_cons_self
  rw [hposition] at hsplits hbuffer
  exact ⟨_, _, hreached, hposition, by decide +kernel, hwholes, hsplits, hbuffer⟩

end Cursor

end JavaSyntax
