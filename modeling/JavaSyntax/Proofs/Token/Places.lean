import JavaSyntax.Proofs.Token.Passed

/-!
# Where tokens stand

A token that a cursor holds stands in the text at its span, whether the rest of the text can be
split into tokens or not. Only the end of the text is empty, and it stands behind everything
else. So a cursor cannot have passed more tokens than the text has bytes.
-/

namespace JavaSyntax

/-- A token that stands in a text where its span says. -/
structure Token.StandsIn (text : String) (t : Token) : Prop where
  isValid : String.Pos.Raw.IsValid text ⟨t.span.start.offset⟩
  slice_eq : t.span.slice text = t.source
  source_ne_empty : t.isEnd = false → t.source ≠ ""
  offset_of_isEnd : t.isEnd = true → t.span.start.offset = text.utf8ByteSize
  source_of_isEnd : t.isEnd = true → t.source = ""

/-! ### Tiles of a text -/

/-- A tile starts between two characters and is the slice of the text under its span. -/
theorem Tiles.of_mem {text rest : String} {fs : List Fragment} {stop : Nat} {f : Fragment}
    (h : Tiles text 0 fs stop) (htext : text = joined fs ++ rest) (hf : f ∈ fs) :
    String.Pos.Raw.IsValid text ⟨f.span.start.offset⟩ ∧ f.span.slice text = f.text := by
  obtain ⟨before, after, rfl⟩ := List.append_of_mem hf
  obtain ⟨start, hbefore, hafter⟩ := h.exists_of_append
  have hstart : start = (joined before).utf8ByteSize := by simpa using hbefore.stop_eq
  rw [joined_append, String.append_assoc] at htext
  cases hafter with
  | cons hsize hslice htail =>
    refine ⟨?_, hslice⟩
    rw [hstart]
    exact String.Pos.Raw.isValid_iff_exists_append.mpr ⟨_, _, htext, rfl⟩

/-- The text of tokens in sequence is that of the one run and then the other. -/
theorem reconstruct_append (ts us : List Token) :
    reconstruct (ts ++ us) = reconstruct ts ++ reconstruct us := by
  simp [reconstruct]

/-- Tokens that are not empty are no more than the bytes that they spell. -/
theorem length_le_reconstruct {ts : List Token} (h : ∀ t ∈ ts, t.source ≠ "") :
    ts.length ≤ (reconstruct ts).utf8ByteSize := by
  induction ts with
  | nil => exact Nat.zero_le _
  | cons t ts ih =>
    have hts := ih fun u hu => h u (List.mem_cons_of_mem _ hu)
    have hsource : t.source.utf8ByteSize ≠ 0 := by simpa using h t List.mem_cons_self
    have hcons : reconstruct (t :: ts) = t.fullText ++ reconstruct ts := by simp [reconstruct]
    rw [hcons, String.utf8ByteSize_append, Token.fullText, String.utf8ByteSize_append,
      List.length_cons]
    omega

/-- The tokens of a text tile the start of it, even if the lexer refuses to go on. -/
theorem exists_tiles_tokenize (text : String) (preferences : LexicalPreferences) :
    ∃ stop rest, Tiles text 0 ((tokenize text preferences).tokens.flatMap Token.fragments) stop ∧
      text = reconstruct (tokenize text preferences).tokens ++ rest ∧
      ∀ t ∈ (tokenize text preferences).tokens, t.isEnd = false → t.source ≠ "" := by
  cases hfailure : (tokenize text preferences).failure with
  | none =>
    let x : Tokenized := ⟨text, preferences, hfailure⟩
    obtain ⟨htiles, htext⟩ := tiles_of_tokenize x.toExcept_tokenize
    exact ⟨_, "", htiles, htext.symm.trans (String.append_empty).symm,
      fun t ht hend => x.source_ne_empty ht hend⟩
  | some e =>
    obtain ⟨m, c, cs, -, hread, -⟩ := tokenize_eq_error (LexRun.toExcept_eq_error.mpr hfailure)
    obtain ⟨stop, htiles, -⟩ := hread.tiles.exists_of_append
    have htext := hread.text_eq
    rw [joined_append, joined_flatMap_fragments, String.append_assoc] at htext
    refine ⟨stop, _, htiles, htext, fun t ht _ => ?_⟩
    refine hread.nonempty ⟨t.span, t.source⟩ (List.mem_append_left _ ?_)
    exact List.mem_flatMap.mpr ⟨t, ht, t.fragment_mem_fragments⟩

/-- The end of a text stands behind all of it. -/
theorem Tokenized.end_eq (x : Tokenized) {t : Token} (ht : t ∈ x.tokens) (hend : t.isEnd = true) :
    t.span.start.offset = x.text.utf8ByteSize ∧ t.source = "" := by
  obtain ⟨body, m, hrest, hread, hbody, htokens⟩ := tokenize_eq_ok x.toExcept_tokenize
  rw [htokens, List.mem_append, List.mem_singleton] at ht
  rcases ht with ht | rfl
  · rw [hbody t ht] at hend
    cases hend
  · have htext := (hread.tiles_end hrest).1
    exact ⟨hread.offset_eq.trans (congrArg String.utf8ByteSize htext).symm, rfl⟩

/-! ### Cursors over a text -/

namespace Cursor

variable {text : String} {preferences : LexicalPreferences} {c : Cursor} {t : Token}

/-- The buffer tiles the start of the text. -/
theorem Over.exists_tiles (h : c.Over text preferences) :
    ∃ stop rest, Tiles text 0 (c.buffer.toList.flatMap Token.fragments) stop ∧
      text = reconstruct c.buffer.toList ++ rest := by
  obtain ⟨_, rest, htiles, htext, -⟩ := exists_tiles_tokenize text preferences
  obtain ⟨later, hlater⟩ : c.wholes <+: (tokenize text preferences).tokens :=
    h.delivers.isPrefix_runFrom [] []
  rw [← hlater, List.flatMap_append] at htiles
  rw [← hlater, reconstruct_append, String.append_assoc] at htext
  obtain ⟨stop, hwholes, -⟩ := htiles.exists_of_append
  have hspelt := h.delivers.spelt
  have hsplits := h.wellFormed.splitsTo
  refine ⟨stop, reconstruct later ++ rest, hsplits.tiles hspelt htext hwholes, ?_⟩
  rw [hsplits.reconstruct_eq hspelt]
  exact htext

/-- Only the end of the text is an empty token. -/
theorem Over.source_ne_empty (h : c.Over text preferences) (ht : t ∈ c.buffer.toList)
    (hend : t.isEnd = false) : t.source ≠ "" := by
  obtain ⟨_, _, -, -, hsource⟩ := exists_tiles_tokenize text preferences
  have hwholes : c.wholes <+: (tokenize text preferences).tokens :=
    h.delivers.isPrefix_runFrom [] []
  obtain ⟨w, hw, hpart⟩ := h.wellFormed.splitsTo.exists_partOf ht
  exact hpart.source_ne_empty (h.delivers.spelt w hw) (hsource w (hwholes.subset hw)) hend

/-- Every token of a cursor over a text stands in it. -/
theorem Over.standsIn (h : c.Over text preferences) (ht : t ∈ c.buffer.toList) :
    t.StandsIn text := by
  obtain ⟨stop, rest, htiles, htext⟩ := h.exists_tiles
  rw [← joined_flatMap_fragments] at htext
  have hmem : ⟨t.span, t.source⟩ ∈ c.buffer.toList.flatMap Token.fragments :=
    List.mem_flatMap.mpr ⟨t, ht, t.fragment_mem_fragments⟩
  obtain ⟨hvalid, hslice⟩ := htiles.of_mem htext hmem
  have hstop (hend : t.isEnd = true) :
      t.span.start.offset = text.utf8ByteSize ∧ t.source = "" := by
    -- a text whose end was delivered can be split into tokens
    have hwhole := h.wellFormed.splitsTo.mem_of_isEnd ht hend
    obtain ⟨hfailure, htokens⟩ :=
      h.delivers.runFrom_of_end (h.delivers.isEnd_getLast? hwhole hend) [] []
    let x : Tokenized := ⟨text, preferences, hfailure⟩
    refine x.end_eq ?_ hend
    rw [show x.tokens = c.wholes from htokens]
    exact hwhole
  exact ⟨hvalid, hslice, h.source_ne_empty ht, fun hend => (hstop hend).1,
    fun hend => (hstop hend).2⟩

/-- A token is found by looking ahead among those that were read. -/
theorem Settled.mem_of_peekAhead {c' : Cursor} {n : Nat} (h : c.Settled)
    (hpeek : Cursor.peekAhead n c = (.ok t, c')) : t ∈ c'.buffer.toList := by
  have hlt := (h.peekAhead n).1.looked t (by rw [hpeek])
  rw [hpeek] at hlt
  dsimp only at hlt
  have htoken : t = c'.tokenAt (c.position + n) := by
    rw [peekAhead_apply] at hpeek
    split at hpeek
    · cases hpeek
      rfl
    · cases hpeek
  rw [htoken, tokenAt]
  cases hfound : c'.buffer[c.position + n]? with
  | some u => exact Array.mem_toList_iff.mpr (Array.mem_of_getElem? hfound)
  | none =>
    have hlast : c'.buffer.size - 1 < c'.buffer.size := by omega
    rw [Option.getD_none, Array.back?_eq_getElem?, Array.getElem?_eq_getElem hlast,
      Option.getD_some]
    simp

/-- Each token that was passed takes a byte at least. -/
theorem Settled.position_le_size (h : c.Settled) (hover : c.Over text preferences) :
    c.position ≤ text.utf8ByteSize := by
  obtain ⟨_, rest, -, htext⟩ := hover.exists_tiles
  have hsource (t : Token) (ht : t ∈ c.passed) : t.source ≠ "" :=
    hover.source_ne_empty (List.mem_of_mem_take ht) (h.isEnd_eq_false hover ht)
  have hpassed := length_le_reconstruct hsource
  rw [h.length_passed] at hpassed
  have hbuffer : c.buffer.toList = c.passed ++ c.buffer.toList.drop c.position :=
    (List.take_append_drop _ _).symm
  rw [htext, hbuffer, reconstruct_append, String.utf8ByteSize_append, String.utf8ByteSize_append]
  omega

end Cursor

end JavaSyntax
