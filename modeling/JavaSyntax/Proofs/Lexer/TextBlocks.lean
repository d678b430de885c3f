import JavaSyntax.Proofs.Lexer.Quotation
import JavaSyntax.Proofs.Lexer.Trivia
import Mathlib.Data.List.Forall2

/-!
# The layout of text blocks

What stands between the quotes of a text block is lines with terminators between them. Which
terminators these are, how far all lines below the opening one are indented, and how many spaces
stand at the ends of lines is layout: a text block that is laid out in another way is a lexeme
again, and it is decoded to the same value or refused like the first.
-/

namespace JavaSyntax

namespace TextBlock

/-! ### Lines and their terminators -/

/-- A line has no terminator inside it. -/
def IsLine (line : List Char) : Prop := ∀ c ∈ line, isLineTerminator c = false

instance (line : List Char) : Decidable (IsLine line) :=
  decidable_of_iff (line.all (!isLineTerminator ·) = true) (by simp [IsLine])

/-- A text consists of lines, with a terminator after each of them but the last. A carriage
return that is a terminator of its own has no line feed after it. -/
inductive LaidOut : List (List Char) → List Char → Prop
  | closing {line : List Char} (h : IsLine line) : LaidOut [line] line
  | line {line terminator rest : List Char} {lines : List (List Char)} (h : IsLine line)
      (hends : EndsLine terminator rest) (hrest : LaidOut lines rest) :
      LaidOut (line :: lines) (line ++ (terminator ++ rest))

def spaces (n : Nat) : List Char := List.replicate n ' '

/-- A line with spaces at its end. -/
def Padded (line line' : List Char) : Prop := ∃ n, line' = line ++ spaces n

/-- The changes of a text block's layout, by what stands between the quotes. The first line of a
layout is the opening line, and its last line is that of the closing quotes. Where lines change,
their terminators may change, too. -/
inductive Relaid (inner : List Char) : List Char → Prop
  /-- The same lines with other terminators. -/
  | terminators {lines : List (List Char)} {inner' : List Char} (h : LaidOut lines inner)
      (h' : LaidOut lines inner') : Relaid inner inner'
  /-- Every line below the opening line has as many spaces more at its start. -/
  | indent {opening inner' : List Char} {lines : List (List Char)} (n : Nat)
      (h : LaidOut (opening :: lines) inner)
      (h' : LaidOut (opening :: lines.map (spaces n ++ ·)) inner') : Relaid inner inner'
  /-- Any line but the last has any number of spaces more at its end. -/
  | pad {closing inner' : List Char} {lines lines' : List (List Char)}
      (h : LaidOut (lines ++ [closing]) inner) (hpad : List.Forall₂ Padded lines lines')
      (h' : LaidOut (lines' ++ [closing]) inner') : Relaid inner inner'

variable {line terminator rest inner inner' : List Char} {lines lines' : List (List Char)}

/-- A text has a line. -/
theorem LaidOut.ne_nil (h : LaidOut lines inner) : lines ≠ [] := by
  cases h <;> exact nofun

/-- A text is one line, or it has an opening line and a terminator behind it. -/
theorem isLine_or_exists_opening (inner : List Char) :
    IsLine inner ∨ ∃ opening terminator content, inner = opening ++ (terminator ++ content) ∧
      IsLine opening ∧ EndsLine terminator content ∧
      openingLength inner = byteLength (opening ++ terminator) := by
  have hopening : IsLine (inner.takeWhile (!isLineTerminator ·)) := fun c hc => by
    simpa using List.all_eq_true.mp List.all_takeWhile c hc
  have hsplit := List.takeWhile_append_dropWhile (p := (!isLineTerminator ·)) (l := inner)
  have hfirst := List.head?_dropWhile_not (!isLineTerminator ·) inner
  generalize inner.takeWhile (!isLineTerminator ·) = opening at *
  cases hrest : inner.dropWhile (!isLineTerminator ·) with
  | nil =>
    rw [hrest, List.append_nil] at hsplit
    exact .inl (hsplit ▸ hopening)
  | cons c more =>
    rw [hrest] at hsplit hfirst
    obtain ⟨terminator, content, hcontent, hends, hlength⟩ :=
      openingLength_eq hopening (by simpa using hfirst) more
    rw [hsplit] at hcontent hlength
    rw [List.append_assoc] at hcontent
    exact .inr ⟨opening, terminator, content, hcontent, hopening, hends, hlength⟩

/-- Every text consists of lines. -/
theorem exists_laidOut (inner : List Char) : ∃ lines, LaidOut lines inner := by
  rcases isLine_or_exists_opening inner with h |
    ⟨opening, terminator, content, hinner, hopening, hends, -⟩
  · exact ⟨[inner], .closing h⟩
  · have hlength : content.length < inner.length := by
      have hpos : 0 < terminator.length := by
        rcases hends with rfl | rfl | ⟨rfl, -⟩ <;> exact Nat.succ_pos _
      rw [hinner, List.length_append, List.length_append]
      omega
    obtain ⟨lines, hlines⟩ := exists_laidOut content
    rw [hinner]
    exact ⟨opening :: lines, .line hopening hends hlines⟩
termination_by inner.length

/-! ### Lines that are read -/

/-- A line is read into the current one. -/
theorem splitRest_line (h : IsLine line) (done : List (List Char)) (current rest : List Char) :
    splitRest done current (line ++ rest) = splitRest done (line.reverse ++ current) rest := by
  induction line generalizing current with
  | nil => rfl
  | cons c line ih =>
    have hc := h c List.mem_cons_self
    have hreturn : c ≠ '\r' := by
      rintro rfl
      cases hc
    rw [List.cons_append, splitRest, hc, if_neg Bool.false_ne_true,
      ih fun d hd => h d (List.mem_cons_of_mem _ hd)]
    · simp
    · intro _ hpair
      exact absurd hpair hreturn

/-- A terminator ends the current line. -/
theorem splitRest_terminator (h : EndsLine terminator rest) (done : List (List Char))
    (current : List Char) :
    splitRest done current (terminator ++ rest) = splitRest (current.reverse :: done) [] rest := by
  rcases h with rfl | rfl | ⟨rfl, hrest⟩
  · rfl
  · rfl
  · cases rest with
    | nil => rfl
    | cons d rest =>
      have hd : d ≠ '\n' := by simpa using hrest
      rw [List.singleton_append, splitRest]
      · rfl
      · intro _ _ hpair
        exact hd (List.cons.inj hpair).1

/-- A text is split into the lines that it consists of. -/
theorem LaidOut.splitRest_eq (h : LaidOut lines inner) (done : List (List Char)) :
    splitRest done [] inner = done.reverse ++ lines := by
  induction h generalizing done with
  | @closing line h =>
    have hline := splitRest_line h done [] []
    rw [List.append_nil, List.append_nil] at hline
    rw [hline, splitRest, List.reverse_reverse, List.reverse_cons]
  | @line line terminator rest lines h hends hrest ih =>
    rw [splitRest_line h, splitRest_terminator hends, ih, List.append_nil, List.reverse_reverse,
      List.reverse_cons, List.append_assoc, List.singleton_append]

/-- A text has only one layout. -/
theorem LaidOut.splitLines_eq (h : LaidOut lines inner) : splitLines inner = lines :=
  h.splitRest_eq []

/-- The lines of the content are those below the opening line. -/
theorem LaidOut.contentLines_eq {opening : List Char} (h : LaidOut (opening :: lines) inner)
    (hlines : lines ≠ []) : contentLines inner = lines := by
  obtain ⟨line, lines, rfl⟩ := List.exists_cons_of_ne_nil hlines
  rw [contentLines, h.splitLines_eq]

/-- Without a line below the opening one, the content is an empty line. -/
theorem LaidOut.contentLines_singleton (h : LaidOut [line] inner) : contentLines inner = [[]] := by
  rw [contentLines, h.splitLines_eq]

/-! ### Indentation -/

/-- Spaces are blank. -/
theorem isBlank_of_mem_spaces {n : Nat} : ∀ c ∈ spaces n, isBlank c = true := by
  intro c hc
  rw [List.eq_of_mem_replicate hc]
  rfl

/-- A line that is indented further is blank if it was. -/
theorem isBlankLine_indent (n : Nat) (line : List Char) :
    isBlankLine (spaces n ++ line) = isBlankLine line := by
  have hspaces : (spaces n).all isBlank = true := List.all_eq_true.mpr isBlank_of_mem_spaces
  rw [isBlankLine, List.all_append, hspaces, Bool.true_and, isBlankLine]

/-- A line that is indented further has that much more indentation. -/
theorem indentation_indent (n : Nat) (line : List Char) :
    indentation (spaces n ++ line) = n + indentation line := by
  rw [indentation, List.takeWhile_append_of_pos isBlank_of_mem_spaces, List.length_append, spaces,
    List.length_replicate, indentation]

/-- What is added to all of some numbers is added to the least. -/
theorem min?_map_add (n : Nat) (ms : List Nat) : (ms.map (n + ·)).min? = ms.min?.map (n + ·) := by
  cases ms with
  | nil => rfl
  | cons m ms =>
    rw [List.map_cons, List.min?_cons', List.min?_cons', Option.map_some]
    congr 1
    induction ms generalizing m with
    | nil => rfl
    | cons k ms ih => rw [List.map_cons, List.foldl_cons, List.foldl_cons, Nat.add_min_add_left, ih]

/-- The last line counts, whether it is blank or not. -/
theorem sharedIndentation_concat (lines : List (List Char)) (closing : List Char) :
    sharedIndentation (lines ++ [closing]) =
      (((lines.filter (!isBlankLine ·)).map indentation ++ [indentation closing]).min?).getD 0 := by
  simp [sharedIndentation]

/-- If all lines are indented further, they share that much more. -/
theorem sharedIndentation_indent (n : Nat) (lines : List (List Char)) (closing : List Char) :
    sharedIndentation ((lines ++ [closing]).map (spaces n ++ ·)) =
      n + sharedIndentation (lines ++ [closing]) := by
  have hcounted : ((lines.map (spaces n ++ ·)).filter (!isBlankLine ·)).map indentation =
      ((lines.filter (!isBlankLine ·)).map indentation).map (n + ·) := by
    rw [List.filter_map, List.map_map, List.map_map]
    congr 1
    · funext line
      exact indentation_indent n line
    · congr 1
      funext line
      exact congrArg (!·) (isBlankLine_indent n line)
  rw [List.map_append, List.map_singleton, sharedIndentation_concat, sharedIndentation_concat,
    hcounted, indentation_indent, ← List.map_singleton, ← List.map_append, min?_map_add]
  have hsome : ((lines.filter (!isBlankLine ·)).map indentation ++
      [indentation closing]).min?.isSome = true := by
    rw [List.isSome_min?_iff]
    simp
  obtain ⟨m, hm⟩ := Option.isSome_iff_exists.mp hsome
  rw [hm]
  rfl

/-- What is added to all lines is taken away again. -/
theorem stripLine_indent (n shared : Nat) (line : List Char) :
    stripLine (n + shared) (spaces n ++ line) = stripLine shared line := by
  have hdrop : (spaces n ++ line).drop (n + shared) = line.drop shared := by
    simp [spaces, List.drop_append]
  rw [stripLine, stripLine, isBlankLine_indent, hdrop]

/-- Spaces that all lines have in common at their start are no part of the content. -/
theorem strip_indent (n : Nat) (hlines : lines ≠ []) :
    strip (lines.map (spaces n ++ ·)) = strip lines := by
  obtain ⟨lines, closing, rfl⟩ : ∃ before closing, lines = before ++ [closing] :=
    ⟨_, _, (List.dropLast_concat_getLast hlines).symm⟩
  rw [strip, strip, sharedIndentation_indent, List.map_map]
  congr 2
  funext line
  exact stripLine_indent n (sharedIndentation (lines ++ [closing])) line

/-! ### Spaces at the ends of lines -/

/-- A line with spaces at its end is blank if it was. -/
theorem isBlankLine_pad (line : List Char) (n : Nat) :
    isBlankLine (line ++ spaces n) = isBlankLine line := by
  have hspaces : (spaces n).all isBlank = true := List.all_eq_true.mpr isBlank_of_mem_spaces
  rw [isBlankLine, List.all_append, hspaces, Bool.and_true, isBlankLine]

/-- The indentation of a line that is not blank ends inside the line. -/
theorem indentation_pad (h : isBlankLine line = false) (n : Nat) :
    indentation (line ++ spaces n) = indentation line := by
  have hshort : (line.takeWhile isBlank).length ≠ line.length := by
    intro hlength
    have hall := List.all_takeWhile (p := isBlank) (l := line)
    rw [(List.takeWhile_prefix isBlank).eq_of_length hlength] at hall
    exact Bool.false_ne_true (h.symm.trans hall)
  rw [indentation, List.takeWhile_append, if_neg hshort, indentation]

/-- Spaces at the end of a line are trimmed. -/
theorem trimEnd_pad (line : List Char) (n : Nat) : trimEnd (line ++ spaces n) = trimEnd line := by
  have hreverse : (spaces n).reverse = spaces n := List.reverse_replicate
  rw [trimEnd, List.reverse_append, hreverse, List.dropWhile_append_of_pos isBlank_of_mem_spaces,
    trimEnd]

/-- A line is stripped to the same with spaces at its end. -/
theorem stripLine_pad (shared : Nat) (line : List Char) (n : Nat) :
    stripLine shared (line ++ spaces n) = stripLine shared line := by
  have hdrop : (line ++ spaces n).drop shared =
      line.drop shared ++ spaces (n - (shared - line.length)) := by
    rw [List.drop_append, spaces, List.drop_replicate, spaces]
  rw [stripLine, stripLine, isBlankLine_pad, hdrop, trimEnd_pad]

/-- Lines are stripped to the same with spaces at their ends. -/
theorem map_stripLine_pad (h : List.Forall₂ Padded lines lines') (shared : Nat) :
    lines'.map (stripLine shared) = lines.map (stripLine shared) := by
  induction h with
  | nil => rfl
  | cons hline _ ih =>
    obtain ⟨n, rfl⟩ := hline
    rw [List.map_cons, List.map_cons, ih, stripLine_pad]

/-- Only lines that are not blank count, and their indentations are not changed. -/
theorem sharedIndentation_pad (h : List.Forall₂ Padded lines lines') (closing : List Char) :
    sharedIndentation (lines' ++ [closing]) = sharedIndentation (lines ++ [closing]) := by
  have hcounted : (lines'.filter (!isBlankLine ·)).map indentation =
      (lines.filter (!isBlankLine ·)).map indentation := by
    induction h with
    | nil => rfl
    | @cons line _ lines lines' hline _ ih =>
      obtain ⟨n, rfl⟩ := hline
      cases hblank : isBlankLine line with
      | true =>
        rw [List.filter_cons_of_neg (by simp [isBlankLine_pad, hblank]),
          List.filter_cons_of_neg (by simp [hblank]), ih]
      | false =>
        rw [List.filter_cons_of_pos (by simp [isBlankLine_pad, hblank]),
          List.filter_cons_of_pos (by simp [hblank]), List.map_cons, List.map_cons, ih,
          indentation_pad hblank]
  rw [sharedIndentation_concat, sharedIndentation_concat, hcounted]

/-- Spaces at the ends of lines are no part of the content. -/
theorem strip_pad (h : List.Forall₂ Padded lines lines') (closing : List Char) :
    strip (lines' ++ [closing]) = strip (lines ++ [closing]) := by
  rw [strip, strip, sharedIndentation_pad h, List.map_append, List.map_append,
    map_stripLine_pad h]

/-! ### Values -/

/-- The value of a text block depends on its stripped lines alone. -/
theorem toOption_decode_congr (h : strip (contentLines inner) = strip (contentLines inner')) :
    (decode inner).toOption = (decode inner').toOption := by
  rw [decode, decode, h]
  cases Escape.decode true (strip (contentLines inner')) <;> rfl

/-- The value of a text block does not depend on its layout. -/
theorem Relaid.strip_eq (h : Relaid inner inner') :
    strip (contentLines inner) = strip (contentLines inner') := by
  cases h with
  | terminators h h' => rw [contentLines, contentLines, h.splitLines_eq, h'.splitLines_eq]
  | @indent opening inner' lines n h h' =>
    by_cases hlines : lines = []
    · subst hlines
      rw [h.contentLines_singleton, h'.contentLines_singleton]
    · rw [h.contentLines_eq hlines, h'.contentLines_eq (by simpa using hlines),
        strip_indent n hlines]
  | @pad closing inner' lines lines' h hpad h' =>
    cases hpad with
    | nil => rw [h.contentLines_singleton, h'.contentLines_singleton]
    | @cons _ _ lines lines' _ hpad =>
      have hstrip := strip_pad hpad closing
      rw [List.cons_append] at h h'
      rw [h.contentLines_eq (by simp), h'.contentLines_eq (by simp), hstrip]

end TextBlock

namespace Literal

open TextBlock

/-- A text block is decoded between its quotes, and the place of a bad escape counts from the first
of them. -/
theorem decode_textBlock (inner : List Char) :
    decode .textBlock (marks ++ inner ++ marks) =
      ((TextBlock.decode inner).mapError fun offset => .invalidEscape (offset + 3)).map
        fun chars => some (.string (String.ofList chars)) := by
  have hinner : undelimited 3 (marks ++ inner ++ marks) = .ok inner :=
    @undelimited_append marks inner marks rfl
  rw [decode, decodeTextBlock, hinner]
  change (TextBlock.decode inner).mapError _ >>= _ = _
  cases TextBlock.decode inner <;> rfl

/-- The value of a text block is that of what stands between its quotes. -/
theorem toOption_decode_textBlock (inner : List Char) :
    (decode .textBlock (marks ++ inner ++ marks)).toOption =
      (TextBlock.decode inner).toOption.map fun chars => some (.string (String.ofList chars)) := by
  rw [decode_textBlock]
  cases TextBlock.decode inner <;> rfl

end Literal

/-! ### Lines that the automaton passes -/

namespace LexState

/-- Whether a state lies below the opening line of a text block. -/
def inContent : LexState → Bool
  | .textBlock | .textBlockQuote | .textBlockTwoQuotes | .textBlockEscape => true
  | _ => false

/-- Where the automaton comes to if it takes all of some characters into a lexeme. -/
def passes? : LexState → List Char → Option LexState
  | s, [] => some s
  | s, c :: cs =>
    match s.next (.ofChar c) with
    | .shift s => s.passes? cs
    | _ => none

variable {s s' : LexState} {c : Char} {cs ds : List Char}

/-- A character that is taken leads to the rest. -/
theorem passes?_cons (h : s.next (.ofChar c) = .shift s') (cs : List Char) :
    s.passes? (c :: cs) = s'.passes? cs := by
  rw [passes?, h]

/-- Characters are passed one after the other. -/
theorem passes?_append (s : LexState) (cs ds : List Char) :
    s.passes? (cs ++ ds) = (s.passes? cs).bind (·.passes? ds) := by
  induction cs generalizing s with
  | nil => rfl
  | cons c cs ih =>
    rw [List.cons_append, passes?, passes?]
    split
    · exact ih _
    · rfl

/-- A run goes on behind the characters that it passes. -/
theorem run_passes? (h : s.passes? cs = some s') (taken ds : List Char) :
    Scan.run s taken (cs ++ ds) = Scan.run s' (cs.reverse ++ taken) ds := by
  induction cs generalizing s taken with
  | nil =>
    cases h
    rfl
  | cons c cs ih =>
    rw [passes?] at h
    split at h
    · rename_i next hnext
      rw [List.cons_append, Scan.run, hnext, List.reverse_cons, List.append_assoc,
        List.singleton_append]
      exact ih h _
    · cases h

/-- Below the opening line the automaton stays there. -/
theorem inContent_next {k : CharClass} (hs : s.inContent = true) (h : s.next k = .shift s') :
    s'.inContent = true := by
  cases s <;> cases hs <;> cases k <;> cases h <;> rfl

/-- Below the opening line the automaton stays there, whatever it passes. -/
theorem inContent_passes? (hs : s.inContent = true) (h : s.passes? cs = some s') :
    s'.inContent = true := by
  induction cs generalizing s with
  | nil =>
    cases h
    exact hs
  | cons c cs ih =>
    rw [passes?] at h
    split at h
    · rename_i hnext
      exact ih (inContent_next hs hnext) h
    · cases h

/-- White space parts quotation marks from each other and takes a backslash off its effect. -/
theorem next_blank_of_inContent {k : CharClass} (hs : s.inContent = true) (hk : k.isBlank = true) :
    s.next k = .shift textBlock := by
  cases s <;> cases hs <;> cases k <;> first | cases hk; done | rfl

/-- A terminator leads to the start of a line. -/
theorem next_terminator {k : CharClass} (hs : s = textBlockOpen ∨ s.inContent = true)
    (hk : k = .newline ∨ k = .carriageReturn) : s.next k = .shift textBlock := by
  rcases hs with rfl | hs
  · rcases hk with rfl | rfl <;> rfl
  · rcases hk with rfl | rfl
    · exact next_blank_of_inContent hs rfl
    · exact next_blank_of_inContent hs rfl

/-- Behind a line terminator the automaton is at the start of a line of the content. -/
theorem passes?_terminator {terminator rest : List Char}
    (hs : s = textBlockOpen ∨ s.inContent = true) (h : EndsLine terminator rest) :
    s.passes? terminator = some textBlock := by
  have hnewline : s.next (.ofChar '\n') = .shift textBlock := next_terminator hs (.inl rfl)
  have hreturn : s.next (.ofChar '\r') = .shift textBlock := next_terminator hs (.inr rfl)
  rcases h with rfl | rfl | ⟨rfl, -⟩
  · rw [passes?_cons hreturn]
    rfl
  · rw [passes?_cons hnewline]
    rfl
  · rw [passes?_cons hreturn]
    rfl

/-- Spaces at the start of a line change nothing. -/
theorem passes?_textBlock_spaces (n : Nat) :
    textBlock.passes? (TextBlock.spaces n) = some textBlock := by
  induction n with
  | zero => rfl
  | succ n ih => exact ih

/-- Spaces in the opening line change nothing. -/
theorem passes?_textBlockOpen_spaces (n : Nat) :
    textBlockOpen.passes? (TextBlock.spaces n) = some textBlockOpen := by
  induction n with
  | zero => rfl
  | succ n ih => exact ih

/-- Spaces are passed everywhere below the opening line. -/
theorem isSome_passes?_spaces (hs : s.inContent = true) (n : Nat) :
    (s.passes? (TextBlock.spaces n)).isSome = true := by
  cases n with
  | zero => rfl
  | succ n =>
    have hnext : s.next (.ofChar ' ') = .shift textBlock := next_blank_of_inContent hs rfl
    rw [TextBlock.spaces, List.replicate_succ, passes?_cons hnext]
    exact Option.isSome_of_eq_some (passes?_textBlock_spaces n)

/-- The opening line holds white space only. -/
theorem passes?_textBlockOpen {line : List Char} (hline : TextBlock.IsLine line)
    (h : textBlockOpen.passes? line = some s') : s' = textBlockOpen := by
  induction line with
  | nil =>
    cases h
    rfl
  | cons c line ih =>
    have hc := hline c List.mem_cons_self
    have hrest : TextBlock.IsLine line := fun d hd => hline d (List.mem_cons_of_mem _ hd)
    rw [passes?] at h
    generalize hk : CharClass.ofChar c = k at h
    cases k with
    | space => exact ih hrest h
    | newline =>
      obtain rfl : c = '\n' := CharClass.eq_of_mark? (by rw [hk]; rfl)
      cases hc
    | carriageReturn =>
      obtain rfl : c = '\r' := CharClass.eq_of_mark? (by rw [hk]; rfl)
      cases hc
    | _ => cases h

end LexState

namespace TextBlock

open LexState

variable {line opening closing inner inner' : List Char} {lines lines' : List (List Char)}

/-- The automaton passes the lines of a content, and the closing quotes are the first that it
comes to behind them. -/
def Closes : List (List Char) → Prop
  | [] => False
  | [closing] => textBlock.passes? closing = some textBlock
  | line :: lines => (textBlock.passes? line).isSome = true ∧ Closes lines

/-- The automaton passes the opening line and the content. -/
def Opens : List (List Char) → Prop
  | [] => False
  | opening :: lines => textBlockOpen.passes? opening = some textBlockOpen ∧ Closes lines

/-- A content closes if each of its lines is passed and the last one closes. -/
theorem closes_cons (hlines : lines ≠ []) :
    Closes (line :: lines) ↔ (textBlock.passes? line).isSome = true ∧ Closes lines := by
  cases lines with
  | nil => exact absurd rfl hlines
  | cons next lines => exact Iff.rfl

/-- Which terminators stand between the lines is nothing to the automaton. -/
theorem LaidOut.passes?_iff (h : LaidOut lines inner) :
    textBlock.passes? inner = some textBlock ↔ Closes lines := by
  induction h with
  | closing h => exact Iff.rfl
  | @line line terminator rest lines h hends hrest ih =>
    rw [closes_cons hrest.ne_nil, passes?_append]
    cases hline : textBlock.passes? line with
    | none => simp
    | some s =>
      have hs := inContent_passes? rfl hline
      rw [Option.bind_some, passes?_append, passes?_terminator (.inr hs) hends, Option.bind_some,
        ih]
      simp

/-- The automaton passes a text exactly if it passes the lines of which it consists. -/
theorem LaidOut.passes?_textBlockOpen_iff (h : LaidOut lines inner) :
    textBlockOpen.passes? inner = some textBlock ↔ Opens lines := by
  cases h with
  | closing h =>
    refine iff_of_false (fun hread => ?_) (fun hopens => hopens.2)
    cases passes?_textBlockOpen h hread
  | @line opening terminator rest lines h hends hrest =>
    rw [Opens, passes?_append, ← hrest.passes?_iff]
    cases hopening : textBlockOpen.passes? opening with
    | none => simp
    | some s =>
      obtain rfl := passes?_textBlockOpen h hopening
      rw [Option.bind_some, passes?_append, passes?_terminator (.inl rfl) hends, Option.bind_some]
      simp

/-- Indentation changes nothing about how a line is passed. -/
theorem passes?_indent (n : Nat) (line : List Char) :
    textBlock.passes? (spaces n ++ line) = textBlock.passes? line := by
  rw [passes?_append, passes?_textBlock_spaces, Option.bind_some]

/-- A content that is indented further still closes. -/
theorem Closes.indent (n : Nat) (h : Closes lines) : Closes (lines.map (spaces n ++ ·)) := by
  induction lines with
  | nil => exact h.elim
  | cons line lines ih =>
    by_cases hlines : lines = []
    · subst hlines
      exact (passes?_indent n line).trans h
    · obtain ⟨hline, hlast⟩ := (closes_cons hlines).mp h
      rw [List.map_cons, closes_cons (by simpa using hlines), passes?_indent]
      exact ⟨hline, ih hlast⟩

/-- A content with spaces at the ends of lines still closes. -/
theorem Closes.pad (hpad : List.Forall₂ Padded lines lines') (h : Closes (lines ++ [closing])) :
    Closes (lines' ++ [closing]) := by
  induction hpad with
  | nil => exact h
  | @cons line _ lines lines' hline _ ih =>
    obtain ⟨n, rfl⟩ := hline
    rw [List.cons_append, closes_cons (by simp)] at h ⊢
    obtain ⟨s, hs⟩ := Option.isSome_iff_exists.mp h.1
    rw [passes?_append, hs, Option.bind_some]
    exact ⟨isSome_passes?_spaces (inContent_passes? rfl hs) n, ih h.2⟩

/-- A text block with another layout is still passed up to its closing quotes. -/
theorem Relaid.passes? (h : Relaid inner inner')
    (hread : textBlockOpen.passes? inner = some textBlock) :
    textBlockOpen.passes? inner' = some textBlock := by
  cases h with
  | terminators h h' =>
    exact h'.passes?_textBlockOpen_iff.mpr (h.passes?_textBlockOpen_iff.mp hread)
  | indent n h h' =>
    obtain ⟨hopening, hcloses⟩ := h.passes?_textBlockOpen_iff.mp hread
    exact h'.passes?_textBlockOpen_iff.mpr ⟨hopening, hcloses.indent n⟩
  | pad h hpad h' =>
    have hopens := h.passes?_textBlockOpen_iff.mp hread
    rw [h'.passes?_textBlockOpen_iff]
    cases hpad with
    | nil => exact hopens
    | cons hline hpad =>
      obtain ⟨n, rfl⟩ := hline
      obtain ⟨hopening, hcloses⟩ := hopens
      refine ⟨?_, hcloses.pad hpad⟩
      rw [passes?_append, hopening, Option.bind_some, passes?_textBlockOpen_spaces]

end TextBlock

/-! ### Lexemes -/

namespace Scan

open LexState TextBlock

variable {s : LexState} {c : Char} {taken cs taken' rest inner : List Char} {kind : TokenKind}

/-- From inside of a quotation the automaton stays inside as long as it goes on. -/
theorem quoted_next {s s' : LexState} {k : CharClass} (hs : s.quoted = true)
    (h : s.next k = .shift s') : s'.quoted = true := by
  cases goes_of_next hs h with
  | inString _ hs' | inChar _ hs' | inBlock _ hs' => rcases hs' with rfl | rfl <;> rfl
  | _ => rfl

/-- A run inside a quotation comes to the end of a text block with a mark after two others. -/
theorem exists_passes?_of_run (hs : s.quoted = true)
    (h : run s taken cs = .lexeme (.token .textBlock) taken' rest) :
    ∃ body, taken'.reverse = taken.reverse ++ body ++ ['"'] ∧
      s.passes? body = some textBlockTwoQuotes := by
  fun_induction run s taken cs with
  | case1 s taken kind hnext | case7 s taken c cs kind hnext =>
    cases h
    cases (quoted_of_stop hnext rfl).2
  | case5 s taken c cs next hnext ih =>
    have hnextQuoted := quoted_next hs hnext
    obtain ⟨body, htaken, hbody⟩ := ih hnextQuoted h
    refine ⟨c :: body, ?_, (passes?_cons hnext body).trans hbody⟩
    rw [htaken, List.reverse_cons, List.append_assoc taken.reverse, List.singleton_append]
  | case6 s taken c cs kind hnext =>
    cases h
    rcases quoted_of_take hnext rfl with ⟨-, -, h⟩ | ⟨-, -, h⟩ | ⟨rfl, hquote, -⟩
    · cases h
    · cases h
    · obtain rfl : c = '"' := CharClass.eq_of_mark? (by rw [hquote]; rfl)
      exact ⟨[], by simp, rfl⟩
  | _ => cases h

/-- Behind the content the automaton has the closing quotes before it, and not one or two of
them behind it. -/
theorem eq_textBlock_of_passes? (h : s.passes? ['"', '"'] = some textBlockTwoQuotes) :
    s = textBlock := by
  cases s <;> first | rfl | cases h

/-- What stands between the marks of a text block is passed up to the closing quotes. -/
theorem exists_inner_of_start (h : start c cs = .lexeme (.token .textBlock) taken rest) :
    ∃ inner, taken.reverse = marks ++ inner ++ marks ∧
      textBlockOpen.passes? inner = some textBlock := by
  obtain ⟨before, ⟨opening, d, more, rfl, -⟩, htaken⟩ := encloses_of_start h
  obtain rfl : c = '"' := by
    have happend := append_rest_of_start h
    rw [htaken] at happend
    exact (List.cons.inj happend).1.symm
  have hrun : run stringOpen ['"'] cs = .lexeme (.token .textBlock) taken rest := h
  obtain ⟨body, hbody, hpasses⟩ := exists_passes?_of_run rfl hrun
  refine ⟨opening ++ d :: more, htaken, ?_⟩
  obtain rfl : body = '"' :: '"' :: ((opening ++ d :: more) ++ ['"', '"']) := by
    rw [htaken] at hbody
    have hlast :
        marks ++ (opening ++ d :: more) ++ ['"', '"'] ++ ['"'] = ['"'] ++ body ++ ['"'] := by
      simpa [marks] using hbody
    simpa [marks] using (List.append_cancel_right hlast).symm
  have hinner : textBlockOpen.passes? ((opening ++ d :: more) ++ ['"', '"']) =
      some textBlockTwoQuotes := hpasses
  rw [passes?_append] at hinner
  obtain ⟨s, hs, hquotes⟩ := Option.bind_eq_some_iff.mp hinner
  rw [hs, eq_textBlock_of_passes? hquotes]

/-- Whatever follows, a text block ends with its closing quotes. -/
theorem start_textBlock (h : textBlockOpen.passes? inner = some textBlock) (rest : List Char) :
    start '"' ('"' :: '"' :: (inner ++ marks ++ rest)) =
      .lexeme (.token .textBlock) (marks ++ inner ++ marks).reverse rest := by
  change run textBlockOpen marks (inner ++ marks ++ rest) = _
  rw [List.append_assoc, run_passes? h]
  have htaken : (marks ++ inner ++ marks).reverse = marks ++ (inner.reverse ++ marks) := by
    simp [marks]
  rw [htaken]
  rfl

end Scan

/-- A text block whose line terminators are replaced by others, whose lines are indented further,
or whose lines have more spaces at their ends, is a text block again, and its value or its being
refused is the same. -/
theorem textBlock_value_of_relaid {c : Char} {cs taken rest : List Char}
    (h : Scan.start c cs = .lexeme (.token .textBlock) taken rest) :
    ∃ inner, taken.reverse = TextBlock.marks ++ inner ++ TextBlock.marks ∧
      (∃ opening line lines, TextBlock.LaidOut (opening :: line :: lines) inner) ∧
      ∀ inner', TextBlock.Relaid inner inner' →
        (∀ rest', Scan.start '"' ('"' :: '"' :: (inner' ++ TextBlock.marks ++ rest')) =
          .lexeme (.token .textBlock) (TextBlock.marks ++ inner' ++ TextBlock.marks).reverse
            rest') ∧
        (Literal.decode .textBlock (TextBlock.marks ++ inner' ++ TextBlock.marks)).toOption =
          (Literal.decode .textBlock taken.reverse).toOption := by
  obtain ⟨inner, htaken, hpasses⟩ := Scan.exists_inner_of_start h
  refine ⟨inner, htaken, ?_, fun inner' hrelaid => ⟨?_, ?_⟩⟩
  · obtain ⟨lines, hlines⟩ := TextBlock.exists_laidOut inner
    have hopens := hlines.passes?_textBlockOpen_iff.mp hpasses
    match lines, hlines, hopens with
    | opening :: line :: lines, hlines, _ => exact ⟨opening, line, lines, hlines⟩
  · exact fun rest' => Scan.start_textBlock (hrelaid.passes? hpasses) rest'
  · rw [htaken, Literal.toOption_decode_textBlock, Literal.toOption_decode_textBlock,
      TextBlock.toOption_decode_congr hrelaid.strip_eq]

/-- The lines `a\`, which the next line continues, and `b` with the closing line: all of them
further to the right, and with other terminators. -/
theorem textBlock_value_of_relaid_indented :
    Scan.start '"' ('"' :: '"' :: ("\n a\\\n b\n ".toList ++ TextBlock.marks ++ [';'])) =
        .lexeme (.token .textBlock)
          (TextBlock.marks ++ "\n a\\\n b\n ".toList ++ TextBlock.marks).reverse [';'] ∧
      (Literal.decode .textBlock
          (TextBlock.marks ++ "\r\n   a\\\r   b\r\n   ".toList ++ TextBlock.marks)).toOption =
        (Literal.decode .textBlock
          (TextBlock.marks ++ "\n a\\\n b\n ".toList ++ TextBlock.marks)).toOption := by
  have hscan : Scan.start '"' ('"' :: '"' :: ("\n a\\\n b\n ".toList ++ TextBlock.marks ++ [';'])) =
      .lexeme (.token .textBlock)
        (TextBlock.marks ++ "\n a\\\n b\n ".toList ++ TextBlock.marks).reverse [';'] := by decide
  refine ⟨hscan, ?_⟩
  obtain ⟨inner, htaken, -, hrelaid⟩ := textBlock_value_of_relaid hscan
  rw [List.reverse_reverse] at htaken hrelaid
  obtain rfl : "\n a\\\n b\n ".toList = inner :=
    List.append_cancel_left (List.append_cancel_right htaken)
  have hlines : TextBlock.LaidOut ["".toList, " a\\".toList, " b".toList, " ".toList]
      "\n a\\\n b\n ".toList :=
    @TextBlock.LaidOut.line _ ['\n'] _ _ (by decide) (.inr (.inl rfl)) <|
      @TextBlock.LaidOut.line _ ['\n'] _ _ (by decide) (.inr (.inl rfl)) <|
        @TextBlock.LaidOut.line _ ['\n'] _ _ (by decide) (.inr (.inl rfl)) (.closing (by decide))
  have hlines' : TextBlock.LaidOut ["".toList, "   a\\".toList, "   b".toList, "   ".toList]
      "\r\n   a\\\r   b\r\n   ".toList :=
    @TextBlock.LaidOut.line _ ['\r', '\n'] _ _ (by decide) (.inl rfl) <|
      @TextBlock.LaidOut.line _ ['\r'] _ _ (by decide) (.inr (.inr ⟨rfl, by decide⟩)) <|
        @TextBlock.LaidOut.line _ ['\r', '\n'] _ _ (by decide) (.inl rfl) (.closing (by decide))
  exact (hrelaid _ (.indent 2 hlines hlines')).2

end JavaSyntax
