import JavaSyntax.Proofs.Token.Passed
import Mathlib.Algebra.GroupWithZero.Nat

/-!
# The words ahead of a cursor

What a parse makes of a text depends on the kinds, spellings and values of the tokens ahead
and on nothing else. These are the words that a cursor faces, whether their tokens have been
read or not. Looking ahead finds them, taking a token passes the first of them, and going
back brings them back.
-/

namespace JavaSyntax

/-- What the grammar can see of a token. -/
structure Word where
  kind : TokenKind
  text : String
  value : Option LiteralValue

/-- The end of a text. -/
def Word.stop : Word := ⟨.endOfInput, "", none⟩

/-- What the grammar can see of a token. -/
def Token.word (t : Token) : Word := ⟨t.kind, t.source, t.value⟩

/-- The word so many places ahead, or the end of the text where there is none. -/
def wordAt (ws : List Word) (n : Nat) : Word := ws[n]?.getD .stop

/-- Behind all words there is the end of the text. -/
@[simp] theorem wordAt_nil (n : Nat) : wordAt [] n = .stop := rfl

/-- No places ahead is the next word. -/
@[simp] theorem wordAt_cons_zero (w : Word) (ws : List Word) : wordAt (w :: ws) 0 = w := rfl

/-- One place further ahead is that place behind the next word. -/
@[simp] theorem wordAt_cons_succ (w : Word) (ws : List Word) (n : Nat) :
    wordAt (w :: ws) (n + 1) = wordAt ws n := rfl

/-- As many places ahead as there are words, the text ends. -/
theorem wordAt_of_length_le {ws : List Word} {n : Nat} (h : ws.length ≤ n) :
    wordAt ws n = .stop := by
  rw [wordAt, List.getElem?_eq_none h]
  rfl

/-- There are no more things than words that they are made of. -/
theorem length_le_length_flatMap {α : Type} {as : List α} {words : α → List Word}
    (h : ∀ a ∈ as, words a ≠ []) : as.length ≤ (as.flatMap words).length := by
  induction as with
  | nil => exact Nat.zero_le _
  | cons a as ih =>
    have ha := List.length_pos_iff.mpr (h a List.mem_cons_self)
    have has := ih fun b hb => h b (List.mem_cons_of_mem _ hb)
    simp only [List.flatMap_cons, List.length_append, List.length_cons]
    omega

/-- What remains of a word after the `>` that it starts with. -/
def Word.afterGreater (w : Word) (kind : TokenKind) : Word :=
  ⟨kind, String.ofList w.text.toList.tail, none⟩

/-- What remains of a token is the word that remains of its word. -/
theorem Token.word_greaterTail (t : Token) (kind : TokenKind) :
    (t.greaterTail kind).word = t.word.afterGreater kind := rfl

/-- Kinds are different if they do not have the same property. -/
theorem TokenKind.beq_false_of_bool {p : TokenKind → Bool} {kind other : TokenKind}
    (h : p kind = true) (hother : p other = false) : (kind == other) = false := by
  apply beq_false_of_ne
  rintro rfl
  rw [h] at hother
  cases hother

namespace Cursor

variable {x : Tokenized} {c c' d : Cursor} {ws : List Word} {w : Word}

/-! ### Tokens that are yet to come -/

/-- The tokens from the position on, whether they have been read or not. -/
def upcoming (x : Tokenized) (c : Cursor) : List Token :=
  c.buffer.toList.drop c.position ++ x.tokens.drop c.wholes.length

namespace On

/-- What has been read and what has not are the tokens of the text, with some of them split. -/
theorem splitsTo (h : c.On x) :
    SplitsTo x.tokens c.splits (c.buffer.toList ++ x.tokens.drop c.wholes.length) := by
  obtain ⟨later, hlater⟩ := h.isPrefix
  have hsplits := h.settled.splitsTo.append later
  rw [← hlater, List.drop_left]
  exact hsplits

/-- The tokens from the position on are those of the buffer and those that are still to be read. -/
theorem upcoming_eq (h : c.On x) :
    c.upcoming x = (c.buffer.toList ++ x.tokens.drop c.wholes.length).drop c.position := by
  have hle : c.position ≤ c.buffer.toList.length := by simpa using h.settled.position_le
  rw [List.drop_append_of_le_length hle]
  rfl

/-- A cursor that stands at the same place with the same splits has the same tokens ahead. -/
theorem upcoming_congr (h : c.On x) (hd : d.On x) (hposition : d.position = c.position)
    (hsplits : d.splits = c.splits) : d.upcoming x = c.upcoming x := by
  have hsame := hd.splitsTo
  rw [hsplits] at hsame
  rw [h.upcoming_eq, hd.upcoming_eq, hsame.unique h.splitsTo, hposition]

/-- A token that was read is among those that are upcoming. -/
theorem upcoming_of_getElem? (h : c.On x) {n : Nat} {t : Token}
    (ht : c.buffer[c.position + n]? = some t) : (c.upcoming x)[n]? = some t := by
  rw [← Array.getElem?_toList] at ht
  obtain ⟨hlt, -⟩ := List.getElem?_eq_some_iff.mp ht
  rw [h.upcoming_eq, List.getElem?_drop, List.getElem?_append_left hlt, ht]

/-- There is nothing to see of the end of the text. -/
theorem word_of_isEnd (h : c.On x) {t : Token} (ht : t ∈ c.buffer.toList)
    (hend : t.isEnd = true) : t.word = .stop := by
  obtain ⟨body, m, -, -, hbody, htokens⟩ := tokenize_eq_ok x.toExcept_tokenize
  have hmem := h.settled.splitsTo.mem_of_isEnd ht hend
  rw [h.wholes_eq ht hend, htokens, List.mem_append, List.mem_singleton] at hmem
  rcases hmem with hmem | rfl
  · rw [hbody t hmem] at hend
    cases hend
  · rfl

end On

/-! ### Words ahead -/

/-- A cursor on a text that has these words ahead, and then the end of the text. -/
structure Faces (x : Tokenized) (ws : List Word) (c : Cursor) : Prop where
  on : c.On x
  words_eq : (c.upcoming x).map Token.word = ws ++ [.stop]

/-- At the start of a text, all its words are ahead. -/
theorem faces_ofText (x : Tokenized) (h : x.tokens.map Token.word = ws ++ [.stop]) :
    (Cursor.ofText x.text x.preferences).Faces x ws :=
  ⟨⟨settled_ofText x.text x.preferences, over_ofText x.text x.preferences⟩, h⟩

/-- The words ahead depend on the position and on the splits alone. -/
theorem Faces.congr (h : c.Faces x ws) (hd : d.On x) (hposition : d.position = c.position)
    (hsplits : d.splits = c.splits) : d.Faces x ws :=
  ⟨hd, by rw [h.on.upcoming_congr hd hposition hsplits, h.words_eq]⟩

/-- Notes do not change the words ahead. -/
theorem Faces.withJournal (h : c.Faces x ws) (journal : Array LogEvent) :
    ({ c with journal := journal } : Cursor).Faces x ws :=
  h.congr (h.on.withJournal journal) rfl rfl

/-- The tokens that are upcoming are the words ahead. -/
theorem Faces.word_eq (h : c.Faces x ws) {n : Nat} {t : Token}
    (ht : (c.upcoming x)[n]? = some t) : t.word = wordAt ws n := by
  have hword : (ws ++ [Word.stop])[n]? = some t.word := by
    rw [← h.words_eq, List.getElem?_map, ht]
    rfl
  rcases Nat.lt_or_ge n ws.length with hlt | hge
  · rw [List.getElem?_append_left hlt] at hword
    rw [wordAt, hword]
    rfl
  · rw [List.getElem?_append_right hge] at hword
    obtain ⟨_, hstop⟩ := List.getElem?_eq_some_iff.mp hword
    rw [wordAt_of_length_le hge, ← hstop]
    simp

/-- The token that is found ahead is the one at its index. -/
theorem eq_tokenAt_of_peekAhead {n : Nat} {t : Token} (h : peekAhead n c = (.ok t, c')) :
    t = c'.tokenAt (c.position + n) := by
  rw [peekAhead_apply] at h
  split at h
  · obtain ⟨ht, rfl⟩ := Prod.mk.inj h
    exact (Except.ok.inj ht).symm
  · cases (Prod.mk.inj h).1

/-- Behind the first token come the others. -/
theorem Faces.pastToken (h : c.Faces x (w :: ws)) {t : Token}
    (ht : c.buffer[c.position]? = some t) (hend : t.isEnd = false) :
    (c.pastToken t).Faces x ws := by
  have hcourse := (Course.refl h.on.settled (Nat.le_refl _)).pastToken fun _ => ht
  have hwholes := (h.on.settled.toWellFormed.pastToken t).2
  have hwords := h.words_eq
  rw [← Array.getElem?_toList] at ht
  obtain ⟨hlt, hget⟩ := List.getElem?_eq_some_iff.mp ht
  have hpast : c.pastToken t = { c with position := c.position + 1 } := by
    rw [Cursor.pastToken, if_neg (by simp [hend])]
  refine ⟨hcourse.on h.on, ?_⟩
  rw [upcoming, List.drop_eq_getElem_cons hlt, List.cons_append, List.map_cons] at hwords
  rw [upcoming, hwholes, hpast]
  exact (List.cons.inj hwords).2

/-- Behind the `>` at the start of the first token comes what remains of it. -/
theorem Faces.takeHead (h : c.Faces x (w :: ws)) {t : Token} {kind : TokenKind}
    (ht : c.buffer[c.position]? = some t) (hkind : t.kind.afterGreater? = some kind) :
    (c.takeHead t kind).Faces x (w.afterGreater kind :: ws) := by
  have hcourse := (Course.refl h.on.settled (Nat.le_refl _)).takeHead ht hkind
  have hon := hcourse.on h.on
  have hwords := h.words_eq
  rw [h.on.upcoming_eq] at hwords
  have hsplits := h.on.splitsTo
  have hafter := hon.splitsTo
  refine ⟨hon, ?_⟩
  rw [hon.upcoming_eq, position_takeHead]
  obtain ⟨hsize, hget⟩ := Array.getElem?_eq_some_iff.mp ht
  have hlt : c.position < (c.buffer.toList ++ x.tokens.drop c.wholes.length).length := by
    simp only [List.length_append, Array.length_toList]
    omega
  have hfirst : (c.buffer.toList ++ x.tokens.drop c.wholes.length)[c.position] = t := by
    rw [List.getElem_append_left (by simpa using hsize)]
    simpa using hget
  generalize c.buffer.toList ++ x.tokens.drop c.wholes.length = all at hwords hsplits hlt hfirst
  -- The token is split between what stands before it and what stands after it.
  have hlength : (all.take c.position).length = c.position := by
    rw [List.length_take]
    omega
  have hall : all = all.take c.position ++ t :: all.drop (c.position + 1) := by
    rw [← hfirst]
    simp
  rw [hall] at hsplits
  have hparts := hsplits.split hkind
  rw [hlength] at hparts
  have hdrop : (all.take c.position ++
      t.greaterHead :: t.greaterTail kind :: all.drop (c.position + 1)).drop (c.position + 1) =
      t.greaterTail kind :: all.drop (c.position + 1) := by
    rw [List.append_cons, List.drop_left' (by simp [hlength])]
  rw [List.drop_eq_getElem_cons hlt, hfirst, List.map_cons, List.cons_append] at hwords
  obtain ⟨rfl, hrest⟩ := List.cons.inj hwords
  rw [hafter.unique hparts, hdrop, List.map_cons, hrest, Token.word_greaterTail]
  rfl

/-- Looking ahead finds the word there, or the end of the text beyond the last one. -/
theorem Faces.peekAhead (h : c.Faces x ws) (n : Nat) :
    ∃ t c', peekAhead n c = (.ok t, c') ∧ t.word = wordAt ws n ∧ c'.Faces x ws ∧
      c'.position = c.position := by
  obtain ⟨t, c', ts, hpeek, hreads, hover, hopen⟩ := h.on.onText.peekAhead x.failure_eq n
  have hon : c'.On x := ⟨h.on.settled.readsOn hreads, hover⟩
  have hfaces := h.congr hon hreads.position_eq hreads.splits_eq
  have hposition := hreads.position_eq
  have htoken := eq_tokenAt_of_peekAhead hpeek
  refine ⟨t, c', hpeek, ?_, hfaces, hposition⟩
  cases hfound : c'.buffer[c.position + n]? with
  | some u =>
    rw [htoken, tokenAt, hfound]
    rw [← hposition] at hfound
    exact hfaces.word_eq (hon.upcoming_of_getElem? hfound)
  | none =>
    -- The token is the end of the text, and all words stand before the place looked at.
    have hend : t.isEnd = true := by
      cases hend : t.isEnd with
      | true => rfl
      | false =>
        rw [hopen hend] at hfound
        cases hfound
    have hsize := (h.on.settled.peekAhead n).1.looked t (by rw [hpeek])
    rw [hpeek] at hsize
    have hmem : t ∈ c'.buffer.toList := by
      rw [htoken, tokenAt, hfound, Option.getD_none]
      have hlt : c'.buffer.size - 1 < c'.buffer.size := by dsimp only at hsize; omega
      rw [Array.back?_eq_getElem?, Array.getElem?_eq_getElem hlt, Option.getD_some]
      simp
    have hlength := congrArg List.length hfaces.words_eq
    rw [upcoming, hon.wholes_eq hmem hend, List.drop_length] at hlength
    have hle := Array.getElem?_eq_none_iff.mp hfound
    simp only [List.append_nil, List.length_map, List.length_drop, Array.length_toList,
      List.length_append, List.length_singleton] at hlength
    rw [hon.word_of_isEnd hmem hend, wordAt_of_length_le (by omega)]

/-- Taking a token passes the first word. -/
theorem Faces.advance (h : c.Faces x (w :: ws)) (hw : w.kind ≠ .endOfInput) :
    ∃ t c', advance c = (.ok t, c') ∧ t.word = w ∧ c'.Faces x ws ∧
      c'.position = c.position + 1 := by
  obtain ⟨t, c', hpeek, hword, hfaces, hposition⟩ := h.peekAhead 0
  have hcurrent := h.on.settled.getElem?_current hpeek
  have hkind : t.kind = w.kind := congrArg Word.kind hword
  have hopen : t.isEnd = false := beq_false_of_ne (hkind ▸ hw)
  refine ⟨t, c'.pastToken t, ?_, hword, hfaces.pastToken hcurrent hopen, ?_⟩
  · rw [advance_apply, hpeek]
  · rw [Cursor.pastToken, if_neg (by simp [hopen]), hposition]

/-- Taking a `>` passes it if it is a word. -/
theorem Faces.closing?_greater (h : c.Faces x (w :: ws)) (hw : w.kind = .greater) :
    ∃ t c', closing? c = (.ok (some t), c') ∧ c'.Faces x ws := by
  obtain ⟨t, c', hpeek, hword, hfaces, -⟩ := h.peekAhead 0
  have hcurrent := h.on.settled.getElem?_current hpeek
  have hkind : t.kind = .greater := (congrArg Word.kind hword).trans hw
  refine ⟨t, c'.pastToken t, ?_, hfaces.pastToken hcurrent (by simp [Token.isEnd, hkind])⟩
  rw [h.on.settled.closing?_apply, hpeek]
  exact if_pos hkind

/-- Taking a `>` leaves what remains of the word that it starts. -/
theorem Faces.closing?_split (h : c.Faces x (w :: ws)) (kind : TokenKind)
    (hw : w.kind.afterGreater? = some kind) :
    ∃ t c', closing? c = (.ok (some t), c') ∧ c'.Faces x (w.afterGreater kind :: ws) := by
  obtain ⟨t, c', hpeek, hword, hfaces, -⟩ := h.peekAhead 0
  have hcurrent := h.on.settled.getElem?_current hpeek
  have hkind : t.kind.afterGreater? = some kind := by
    rw [← hw]
    exact congrArg (·.kind.afterGreater?) hword
  have hgreater : t.kind ≠ .greater := by
    intro hgreater
    rw [hgreater] at hkind
    cases hkind
  refine ⟨t.greaterHead, c'.takeHead t kind, ?_, hfaces.takeHead hcurrent hkind⟩
  rw [h.on.settled.closing?_apply, hpeek]
  dsimp only
  rw [if_neg hgreater, hkind, Option.elim_some]

/-- Where no word starts with a `>`, none is taken. -/
theorem Faces.closing?_none (h : c.Faces x ws)
    (hgreater : (wordAt ws 0).kind ≠ .greater)
    (hnone : (wordAt ws 0).kind.afterGreater? = none) :
    ∃ c', closing? c = (.ok none, c') ∧ c'.Faces x ws ∧ c'.position = c.position := by
  obtain ⟨t, c', hpeek, hword, hfaces, hposition⟩ := h.peekAhead 0
  have hkind : t.kind = (wordAt ws 0).kind := congrArg Word.kind hword
  refine ⟨c', ?_, hfaces, hposition⟩
  rw [h.on.settled.closing?_apply, hpeek]
  dsimp only
  rw [hkind, if_neg hgreater, hnone, Option.elim_none]

/-! ### Going back -/

/-- A cursor that goes back to where it stood has the same words ahead. -/
theorem Faces.restore (h : c.Faces x ws) (hcourse : Course c.position c none c') :
    (c'.restore c.position).Faces x ws := by
  have hback := hcourse.restore (Nat.le_refl _) hcourse.le_position
  have hrecalls := hcourse.recalls c (Nat.le_refl _) h.on.settled.recalls
  obtain ⟨hposition, hsplits, -⟩ := hrecalls.restore_eq hcourse.settled.toWellFormed
  exact h.congr (hback.on h.on) hposition hsplits

/-! ### What words are made of -/

/-- A word ahead is that of a token of the text, or of a part of one. -/
theorem Faces.exists_partOf (h : c.Faces x ws) (hw : w ∈ ws) :
    ∃ v ∈ x.tokens, ∃ t, v.PartOf t ∧ t.word = w ∧ t.isEnd = false := by
  have hwords : ws = (c.upcoming x).dropLast.map Token.word := by
    rw [List.map_dropLast, h.words_eq, List.dropLast_concat]
  rw [hwords] at hw
  obtain ⟨t, ht, rfl⟩ := List.mem_map.mp hw
  obtain ⟨body, m, -, -, hbody, htokens⟩ := tokenize_eq_ok x.toExcept_tokenize
  have hopen : t.isEnd = false := by
    refine h.on.splitsTo.isEnd_dropLast ?_ t ?_
    · rw [htokens, List.dropLast_concat]
      exact hbody
    · rw [h.on.upcoming_eq, List.dropLast_eq_take, List.length_drop, Nat.sub_right_comm,
        ← List.drop_take, ← List.dropLast_eq_take] at ht
      exact List.mem_of_mem_drop ht
  have hmem := List.dropLast_subset _ ht
  rw [h.on.upcoming_eq] at hmem
  obtain ⟨v, hv, hpart⟩ := h.on.splitsTo.exists_partOf (List.mem_of_mem_drop hmem)
  exact ⟨v, hv, t, hpart, rfl, hopen⟩

/-- The token of a word is not empty, and its text is the one that its kind demands. -/
theorem Faces.exists_token (h : c.Faces x ws) (hw : w ∈ ws) :
    ∃ t : Token, t.word = w ∧ t.isEnd = false ∧ t.source ≠ "" ∧ t.Spelt := by
  obtain ⟨v, hv, t, hpart, hword, hopen⟩ := h.exists_partOf hw
  have hspelt := x.spelt hv
  exact ⟨t, hword, hopen, hpart.source_ne_empty hspelt (x.source_ne_empty hv) hopen,
    hpart.spelt hspelt⟩

/-- The words ahead stand in the text, one beside the other. -/
theorem Faces.sum_le (h : c.Faces x ws) :
    (ws.map (·.text.utf8ByteSize)).sum ≤ x.text.utf8ByteSize := by
  have hsum (ts : List Token) :
      ((ts.map Token.word).map (·.text.utf8ByteSize)).sum ≤ (reconstruct ts).utf8ByteSize := by
    induction ts with
    | nil => exact Nat.zero_le _
    | cons t ts ih =>
      have hcons : reconstruct (t :: ts) = t.fullText ++ reconstruct ts := by simp [reconstruct]
      rw [hcons, String.utf8ByteSize_append, Token.fullText, String.utf8ByteSize_append]
      simp only [List.map_cons, List.sum_cons, Token.word] at ih ⊢
      omega
  have htext := (tiles_of_tokenize x.toExcept_tokenize).2
  have hall := h.on.splitsTo.reconstruct_eq fun t ht => x.spelt ht
  have hwords := h.words_eq
  rw [h.on.upcoming_eq] at hwords
  rw [← htext, ← hall]
  generalize c.buffer.toList ++ x.tokens.drop c.wholes.length = all at hwords
  have happend (ts us : List Token) : reconstruct (ts ++ us) = reconstruct ts ++ reconstruct us :=
    by simp [reconstruct]
  have hsplit := happend (all.take c.position) (all.drop c.position)
  rw [List.take_append_drop] at hsplit
  have hahead := hsum (all.drop c.position)
  rw [hwords, List.map_append, List.sum_append] at hahead
  rw [hsplit, String.utf8ByteSize_append]
  omega

end Cursor

end JavaSyntax
