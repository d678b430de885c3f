import JavaSyntax.Proofs.Lexer.BoundedNumbers

/-!
# Literals with bounds

The decoders of literals do the same with bounds as without them, unless the delimiters or the
suffix of a literal are not there, and then they break off. The lines of a text block start behind
its opening line, which ends inside the block, and the last of them is there.
-/

namespace JavaSyntax

namespace Bounded

/-! ### Strings and characters -/

section Strings

/-- Only the delimiters can be missing. -/
theorem unlessCut_undelimited (n : Nat) (text : List Char) :
    unlessCut (Literal.undelimited n text) =
      step ((minus? (byteLength text) n).bind (slice? n · text)) := by
  rw [slice?_minus, Literal.undelimited]
  cases (dropBytes? n text).bind (dropLastBytes? n) <;> rfl

/-- A string is decoded as without bounds, unless its delimiters are missing. -/
theorem decodeString?_eq (text : List Char) :
    decodeString? text = unlessCut (Literal.decodeString text) := by
  rw [decodeString?, Literal.decodeString, unlessCut_bind, unlessCut_undelimited]
  congr 1
  funext body
  cases Escape.decode false body <;> rfl

/-- A character is decoded as without bounds, unless its delimiters are missing. -/
theorem decodeChar?_eq (text : List Char) :
    decodeChar? text = unlessCut (Literal.decodeChar text) := by
  rw [decodeChar?, Literal.decodeChar, unlessCut_bind, decodeString?_eq]
  congr 1
  funext chars
  cases chars with
  | nil => rfl
  | cons c cs =>
    cases cs with
    | nil =>
      dsimp only
      split <;> rfl
    | cons => rfl

end Strings

/-! ### Text blocks -/

section TextBlocks

open TextBlock

variable {line terminator rest inner : List Char} {lines : List (List Char)}

/-- A line is left as it is. -/
theorem normalize_line (h : IsLine line) (rest : List Char) :
    normalize (line ++ rest) = line ++ normalize rest := by
  induction line with
  | nil => rfl
  | cons c line ih =>
    have hc := h c List.mem_cons_self
    have hreturn : c ≠ '\r' := by
      rintro rfl
      cases hc
    have hjoin : joinTerminators (c :: (line ++ rest)) = c :: joinTerminators (line ++ rest) := by
      rw [joinTerminators]
      intro _ hpair
      exact absurd hpair hreturn
    have hline : normalize (line ++ rest) = line ++ normalize rest :=
      ih fun d hd => h d (List.mem_cons_of_mem _ hd)
    rw [List.cons_append, normalize, hjoin, List.map_cons, if_neg hreturn, List.cons_append]
    exact congrArg (c :: ·) hline

/-- A terminator is made a line feed. -/
theorem normalize_terminator (h : EndsLine terminator rest) :
    normalize (terminator ++ rest) = '\n' :: normalize rest := by
  rcases h with rfl | rfl | ⟨rfl, hrest⟩
  · rfl
  · rfl
  · cases rest with
    | nil => rfl
    | cons d rest =>
      have hd : d ≠ '\n' := by simpa using hrest
      have hjoin : joinTerminators ('\r' :: d :: rest) = '\r' :: joinTerminators (d :: rest) := by
        rw [joinTerminators]
        intro _ _ hpair
        exact hd (List.cons.inj hpair).1
      rw [List.singleton_append, normalize, hjoin]
      rfl

/-- Behind the normalization the lines are those of the layout. -/
theorem splitOnP_normalize (h : LaidOut lines inner) :
    (normalize inner).splitOnP (· == '\n') = lines := by
  have hfeed {line : List Char} (hline : IsLine line) : ∀ c ∈ line, (c == '\n') = false := by
    intro c hc
    have hterminator := hline c hc
    rw [beq_eq_false_iff_ne]
    rintro rfl
    cases hterminator
  induction h with
  | @closing line hline =>
    have hempty : normalize [] = [] := rfl
    have hsame := normalize_line hline []
    rw [hempty, List.append_nil] at hsame
    rw [hsame]
    exact List.splitOnP_eq_singleton (hfeed hline)
  | line hline hends _ ih =>
    rw [normalize_line hline, normalize_terminator hends,
      List.splitOnP_append_cons_of_forall_mem (hfeed hline) '\n' (by decide), ih]

/-- The opening line of a text block is found to be as long as it is. -/
theorem contentStart?_eq (inner : List Char) : contentStart? inner = some (openingLength inner) := by
  have hsplit := List.takeWhile_append_dropWhile (p := (!isLineTerminator ·)) (l := inner)
  rw [contentStart?, find?, openingLength]
  cases hrest : inner.dropWhile (!isLineTerminator ·) with
  | nil =>
    rw [hrest, List.append_nil] at hsplit
    rw [hsplit]
    rfl
  | cons c more =>
    have hdrop : dropBytes? (byteLength (inner.takeWhile (!isLineTerminator ·))) inner =
        some (c :: more) := by
      rw [hrest] at hsplit
      exact dropBytes?_eq_some_iff.mpr ⟨_, hsplit.symm, rfl⟩
    dsimp only
    rw [hdrop, Option.map_some]
    congr 1
    split
    · rename_i hpair
      cases more with
      | nil => simp at hpair
      | cons d more =>
        obtain ⟨rfl, rfl⟩ : '\r' = c ∧ '\n' = d := by simpa using hpair
        rfl
    · rename_i hpair
      split
      · rename_i heq
        cases heq
        exact absurd rfl hpair
      · rfl
      · rename_i heq
        cases heq

/-- What follows the opening line starts at a character, and its lines are those of the block. -/
theorem exists_dropBytes?_openingLength (inner : List Char) :
    ∃ content, dropBytes? (openingLength inner) inner = some content ∧
      (normalize content).splitOnP (· == '\n') = contentLines inner := by
  rcases isLine_or_exists_opening inner with h |
    ⟨opening, terminator, content, hinner, hopening, hends, hlength⟩
  · have hlength : openingLength inner = byteLength inner := by
      have hall : ∀ c ∈ inner, (!isLineTerminator c) = true := by simpa [IsLine] using h
      have htake := @List.takeWhile_append_of_pos _ _ inner [] hall
      have hdrop := @List.dropWhile_append_of_pos _ _ inner [] hall
      rw [List.append_nil, List.takeWhile_nil, List.append_nil] at htake
      rw [List.append_nil, List.dropWhile_nil] at hdrop
      rw [openingLength, hdrop, htake]
      rfl
    refine ⟨[], ?_, (LaidOut.closing h).contentLines_singleton.symm⟩
    rw [hlength]
    exact dropBytes?_eq_some_iff.mpr ⟨inner, (List.append_nil _).symm, rfl⟩
  · obtain ⟨lines, hlines⟩ := exists_laidOut content
    have hlaid := LaidOut.line hopening hends hlines
    rw [← hinner] at hlaid
    refine ⟨content, ?_, ?_⟩
    · rw [hlength]
      exact dropBytes?_eq_some_iff.mpr
        ⟨opening ++ terminator, by rw [List.append_assoc, ← hinner], rfl⟩
    · rw [splitOnP_normalize hlines, hlaid.contentLines_eq hlines.ne_nil]

/-- Counting the last line by its index finds the shared indentation as well. -/
theorem sharedIndentation_eq (before : List (List Char)) (closing : List Char) :
    sharedIndentation before.length (before ++ [closing]) =
      TextBlock.sharedIndentation (before ++ [closing]) := by
  have hbefore : before.zipIdx.filter (fun line => line.2 == before.length || !isBlankLine line.1) =
      before.zipIdx.filter ((!isBlankLine ·) ∘ Prod.fst) := by
    refine List.filter_congr fun line hmem => ?_
    have hlt : line.2 < before.length := by simpa using List.snd_lt_of_mem_zipIdx hmem
    have hne : (line.2 == before.length) = false := beq_eq_false_iff_ne.mpr (Nat.ne_of_lt hlt)
    rw [hne, Bool.false_or, Function.comp_apply]
  have hclosing : (before ++ [closing]).zipIdx = before.zipIdx ++ [(closing, before.length)] := by
    rw [List.zipIdx_append, Nat.zero_add]
    rfl
  have hmap : (before.zipIdx.filter ((!isBlankLine ·) ∘ Prod.fst)).map
      (fun line => indentation line.1) = (before.filter (!isBlankLine ·)).map indentation := by
    have hfilter := @List.filter_map _ _ Prod.fst (!isBlankLine ·) before.zipIdx
    rw [List.zipIdx_map_fst] at hfilter
    rw [hfilter, List.map_map]
    rfl
  rw [sharedIndentation_concat, sharedIndentation, hclosing, List.filter_append, hbefore,
    List.map_append, hmap]
  congr 3
  rw [List.filter_cons_of_pos (by simp)]
  rfl

/-- The last line is there, and it is not changed again. -/
theorem stripLines?_eq (hlines : lines ≠ []) : stripLines? lines =
    some (lines.map (stripLine (TextBlock.sharedIndentation lines))) := by
  obtain ⟨lines, closing, rfl⟩ : ∃ before closing, lines = before ++ [closing] :=
    ⟨_, _, (List.dropLast_concat_getLast hlines).symm⟩
  have hlast : minus? (lines ++ [closing]).length 1 = some lines.length := by
    rw [List.length_append, List.length_singleton, minus?, if_pos (Nat.le_add_left 1 _),
      Nat.add_sub_cancel]
  have hclosing : (lines ++ [closing])[lines.length]? = some closing := by simp
  rw [stripLines?, hlast]
  change ((lines ++ [closing])[lines.length]?.bind fun closing' => _) = _
  rw [hclosing, Option.bind_some, sharedIndentation_eq]
  split
  · rename_i hblank
    rw [replace?, List.length_map, List.length_append, List.length_singleton,
      if_pos (Nat.lt_succ_self _), List.map_append, List.map_singleton]
    have hempty (shared : Nat) : stripLine shared closing = [] := if_pos hblank
    rw [hempty, List.set_append]
    simp
  · rfl

/-- A text block has a last line. -/
theorem contentLines_ne_nil (inner : List Char) : contentLines inner ≠ [] := by
  unfold contentLines
  split <;> exact List.cons_ne_nil _ _

/-- A text block is decoded as without bounds, unless its delimiters are missing. -/
theorem decodeTextBlock?_eq (text : List Char) :
    decodeTextBlock? text = unlessCut (Literal.decodeTextBlock text) := by
  rw [decodeTextBlock?, Literal.decodeTextBlock, unlessCut_bind, unlessCut_undelimited]
  congr 1
  funext inner
  obtain ⟨content, hcontent, hlines⟩ := exists_dropBytes?_openingLength inner
  rw [contentStart?_eq, step_some_bind, hcontent, step_some_bind, hlines,
    stripLines?_eq (contentLines_ne_nil inner), step_some_bind, TextBlock.decode, strip,
    Nat.add_comm]
  cases Escape.decode true _ <;> rfl

end TextBlocks

/-! ### All literals -/

/-- The decoders with bounds break off only where a literal lacks its delimiters or suffix. -/
theorem decode?_eq (kind : TokenKind) (text : List Char) :
    decode? kind text = unlessCut (Literal.decode kind text) := by
  have hmap {α β : Type} (f : α → β) (e : Except LiteralFault α) :
      f <$> unlessCut e = unlessCut (f <$> e) := by
    cases e with
    | ok a => rfl
    | error fault => cases fault <;> rfl
  have hfloat (width : FloatWidth) :
      (some ∘ .floating) <$> (decodeFloat? width text).adapt .invalidNumber =
        unlessCut (some <$> Literal.decodeFloating width text) := by
    rw [decodeFloat?_eq, adapt_total, Literal.decodeFloating]
    cases Floating.decode width text <;> rfl
  cases kind with
  | intLiteral => rw [decode?, decodeInteger?_eq, hmap, Literal.decode]
  | longLiteral => rw [decode?, decodeInteger?_eq, hmap, Literal.decode]
  | floatLiteral => exact hfloat .single
  | doubleLiteral => exact hfloat .double
  | charLiteral =>
    rw [decode?, decodeChar?_eq, hmap, Literal.decode]
    rfl
  | stringLiteral =>
    rw [decode?, decodeString?_eq, hmap, Literal.decode]
    rfl
  | textBlock =>
    rw [decode?, decodeTextBlock?_eq, hmap, Literal.decode]
    rfl
  | _ => rfl

end Bounded

end JavaSyntax
