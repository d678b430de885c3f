import JavaSyntax.Proofs.Text.Lines

/-!
# The lines that make up a text

A text is its lines one after the other, each with the terminator that ends it. The source map
keeps only where the lines start. This file recovers the lines from the starts: how many there
are, what each of them says, and on which of them, and where on it, an offset stands.
-/

namespace JavaSyntax

variable {cs ds : List Char} {o : Nat}

/-! ### Texts as lines -/

/-- A line of a text: what it says, and the characters that end it. -/
structure TextLine where
  content : List Char
  terminator : List Char

namespace TextLine

def chars (line : TextLine) : List Char := line.content ++ line.terminator

def text (line : TextLine) : String := String.ofList line.content

end TextLine

/-- What ends a line: a line feed, a carriage return, or the pair of both. -/
inductive LineEnd : List Char → Prop
  | feed : LineEnd ['\n']
  | return : LineEnd ['\r']
  | pair : LineEnd ['\r', '\n']

/-- What ends a line is not empty. -/
theorem LineEnd.ne_nil (h : LineEnd cs) : cs ≠ [] := by
  rintro rfl
  cases h

/-- What ends a line is made of characters that end lines. -/
theorem LineEnd.forall_isLineTerminator (h : LineEnd cs) : ∀ c ∈ cs, isLineTerminator c := by
  cases h <;> simp [isLineTerminator]

/-- Whether no character ends a line. -/
def Unbroken (cs : List Char) : Prop := ∀ c ∈ cs, ¬ isLineTerminator c

/-- Without its first character, a line is still unbroken. -/
theorem Unbroken.of_cons {c : Char} (h : Unbroken (c :: cs)) : Unbroken cs :=
  fun d hd => h d (List.mem_cons_of_mem c hd)

/-- Nothing is separated after characters that end no line. -/
theorem Unbroken.not_splitsTerminator (h : Unbroken cs) : ¬ SplitsTerminator cs ds :=
  fun hsplits => h '\r' (List.mem_of_getLast? hsplits.1) rfl

/-- The lines of a text. All of them but the last have a terminator, a line says no part of
one, and a carriage return takes the line feed after it along. -/
inductive Lined : List TextLine → List Char → Prop
  | last (content : List Char) : Unbroken content → Lined [⟨content, []⟩] content
  | line (line : TextLine) (lines : List TextLine) (rest : List Char) :
      Unbroken line.content → LineEnd line.terminator →
      ¬ SplitsTerminator line.terminator rest → Lined lines rest →
      Lined (line :: lines) (line.chars ++ rest)

/-- How many terminators a text has, where a pair is one of them. -/
def terminatorCount : List Char → Nat
  | [] => 0
  | '\r' :: '\n' :: rest => terminatorCount rest + 1
  | c :: rest => terminatorCount rest + if isLineTerminator c then 1 else 0

/-- The lines of characters that follow the start of a line. -/
def linesFrom (content : List Char) : List Char → List TextLine
  | [] => [⟨content, []⟩]
  | '\r' :: '\n' :: rest => ⟨content, ['\r', '\n']⟩ :: linesFrom [] rest
  | c :: rest =>
    if isLineTerminator c then ⟨content, [c]⟩ :: linesFrom [] rest
    else linesFrom (content ++ [c]) rest

/-- An empty line is unbroken. -/
theorem unbroken_nil : Unbroken [] := nofun

/-- The lines that are found make up the text. -/
theorem lined_linesFrom {content : List Char} (h : Unbroken content) :
    Lined (linesFrom content cs) (content ++ cs) := by
  fun_induction linesFrom content cs with
  | case1 content => simpa using Lined.last content h
  | case2 content rest ih =>
    have hline : Lined _ ((⟨content, ['\r', '\n']⟩ : TextLine).chars ++ rest) :=
      .line _ _ _ h .pair (by rintro ⟨hreturn, -⟩; cases hreturn) (ih unbroken_nil)
    simpa [TextLine.chars] using hline
  | case3 content c rest hne hc ih =>
    have hend : LineEnd [c] := by
      rcases (by simpa [isLineTerminator] using hc : c = '\n' ∨ c = '\r') with rfl | rfl
      · exact .feed
      · exact .return
    have hcut : ¬ SplitsTerminator [c] rest := by
      rintro ⟨hreturn, hfeed⟩
      obtain ⟨rest', rfl⟩ := List.head?_eq_some_iff.mp hfeed
      exact hne rest' (by simpa using hreturn) rfl
    have hline : Lined _ ((⟨content, [c]⟩ : TextLine).chars ++ rest) :=
      .line _ _ _ h hend hcut (ih unbroken_nil)
    simpa [TextLine.chars] using hline
  | case4 content c rest hne hc ih =>
    have hcontent : Unbroken (content ++ [c]) := by
      intro d hd
      rcases List.mem_append.mp hd with hd | hd
      · exact h d hd
      · rwa [List.mem_singleton.mp hd]
    simpa using ih hcontent

namespace Lined

variable {lines : List TextLine}

/-- There is always a line. -/
theorem ne_nil (h : Lined lines cs) : lines ≠ [] := by
  cases h <;> exact List.cons_ne_nil _ _

/-- The lines with their terminators give the text back. -/
theorem flatMap_chars (h : Lined lines cs) : lines.flatMap TextLine.chars = cs := by
  induction h with
  | last content hcontent => simp [TextLine.chars]
  | line line lines rest hcontent hend hcut h ih => rw [List.flatMap_cons, ih]

/-- What a line says holds no part of a terminator. -/
theorem unbroken (h : Lined lines cs) : ∀ line ∈ lines, Unbroken line.content := by
  induction h with
  | last content hcontent => simpa using hcontent
  | line line lines rest hcontent hend hcut h ih => simpa using ⟨hcontent, ih⟩

/-- Terminators are made of characters that end lines. -/
theorem forall_terminator (h : Lined lines cs) :
    ∀ line ∈ lines, ∀ c ∈ line.terminator, isLineTerminator c := by
  induction h with
  | last content hcontent => simp
  | line line lines rest hcontent hend hcut h ih =>
    simpa using ⟨hend.forall_isLineTerminator, ih⟩

end Lined

/-! ### Counting terminators -/

/-- Characters that end no line have no terminators among them. -/
theorem Unbroken.terminatorCount_append (h : Unbroken cs) :
    terminatorCount (cs ++ ds) = terminatorCount ds := by
  induction cs with
  | nil => rfl
  | cons c cs ih =>
    have hc := h c List.mem_cons_self
    rw [List.cons_append, terminatorCount, ih h.of_cons, if_neg hc, Nat.add_zero]
    rintro rest rfl -
    exact hc rfl

/-- A terminator counts as one, unless it is cut in two. -/
theorem LineEnd.terminatorCount_append (h : LineEnd cs) (hcut : ¬ SplitsTerminator cs ds) :
    terminatorCount (cs ++ ds) = terminatorCount ds + 1 := by
  cases h with
  | feed => simp [terminatorCount, isLineTerminator]
  | pair => simp [terminatorCount]
  | «return» =>
    rw [List.singleton_append, terminatorCount]
    · rfl
    · rintro rest - rfl
      exact hcut ⟨rfl, rfl⟩

/-- There is one more line than there are terminators. -/
theorem Lined.length_eq {lines : List TextLine} (h : Lined lines cs) :
    lines.length = terminatorCount cs + 1 := by
  induction h with
  | last content hcontent =>
    have hnone : terminatorCount (content ++ []) = 0 := hcontent.terminatorCount_append
    rw [List.append_nil] at hnone
    rw [hnone]
    rfl
  | line line lines rest hcontent hend hcut h ih =>
    rw [TextLine.chars, List.append_assoc, hcontent.terminatorCount_append,
      hend.terminatorCount_append hcut, List.length_cons, ih]

/-! ### Where lines start -/

/-- Where lines start that follow one another from an offset on. -/
def offsetsFrom (o : Nat) : List TextLine → List Nat
  | [] => []
  | line :: lines => o :: offsetsFrom (o + byteLength line.chars) lines

/-- How many bytes the first lines of a text take, which is where the next one starts. -/
def bytesBefore (lines : List TextLine) (n : Nat) : Nat :=
  byteLength ((lines.take n).flatMap TextLine.chars)

section
variable {lines more : List TextLine}

/-- Every line has a start. -/
@[simp] theorem length_offsetsFrom : (offsetsFrom o lines).length = lines.length := by
  induction lines generalizing o with
  | nil => rfl
  | cons line lines ih => rw [offsetsFrom, List.length_cons, ih, List.length_cons]

/-- The lines behind others start where these end. -/
theorem offsetsFrom_append : offsetsFrom o (lines ++ more) = offsetsFrom o lines ++
    offsetsFrom (o + byteLength (lines.flatMap TextLine.chars)) more := by
  induction lines generalizing o with
  | nil => rfl
  | cons line lines ih =>
    rw [List.cons_append, offsetsFrom, ih, offsetsFrom, List.cons_append, List.flatMap_cons,
      byteLength_append, Nat.add_assoc]

/-- All lines start inside of the text that they make up. -/
theorem bounds_offsetsFrom {n : Nat} (h : n ∈ offsetsFrom o lines) :
    o ≤ n ∧ n ≤ o + byteLength (lines.flatMap TextLine.chars) := by
  induction lines generalizing o with
  | nil => cases h
  | cons line lines ih =>
    rw [List.flatMap_cons, byteLength_append]
    rcases List.mem_cons.mp h with rfl | h
    · omega
    · have := ih h
      omega

/-- The first of some lines that follow others starts after the bytes of the others. -/
theorem getElem?_offsetsFrom_append {line : TextLine} :
    (offsetsFrom o (lines ++ line :: more))[lines.length]? =
      some (o + byteLength (lines.flatMap TextLine.chars)) := by
  rw [offsetsFrom_append, List.getElem?_append_right (by simp)]
  simp [offsetsFrom]

end

namespace SourceMap

variable {starts : Array Nat} {lines : List TextLine}

/-- Characters that end no line add no start. -/
theorem addLineStarts_unbroken (h : Unbroken cs) : addLineStarts o starts cs = starts := by
  induction cs generalizing o with
  | nil => rfl
  | cons c cs ih =>
    have hc := h c List.mem_cons_self
    have hcut : ¬ SplitsTerminator [c] cs := by
      rintro ⟨hreturn, -⟩
      cases hreturn
      exact hc rfl
    rw [addLineStarts_cons hcut, if_neg hc, ih h.of_cons]

/-- A terminator adds one start, which is the offset behind it. -/
theorem addLineStarts_lineEnd (h : LineEnd cs) :
    addLineStarts o starts cs = starts.push (o + byteLength cs) := by
  cases h with
  | feed => rfl
  | pair => rfl
  | «return» => rfl

/-- A source map has the starts of just the lines that the text consists of. -/
theorem toList_addLineStarts (h : Lined lines cs) :
    (addLineStarts o (starts.push o) cs).toList = starts.toList ++ offsetsFrom o lines := by
  induction h generalizing o starts with
  | last content hcontent => simp [addLineStarts_unbroken hcontent, offsetsFrom]
  | line line lines rest hcontent hend hcut h ih =>
    have hchars : ¬ SplitsTerminator line.chars rest :=
      fun hsplits => hcut ((splitsTerminator_append_iff hend.ne_nil).mp hsplits)
    rw [addLineStarts_append hchars, TextLine.chars,
      addLineStarts_append hcontent.not_splitsTerminator, addLineStarts_unbroken hcontent,
      addLineStarts_lineEnd hend, Nat.add_assoc, ← byteLength_append, ih, Array.toList_push,
      offsetsFrom, List.append_assoc, List.singleton_append, TextLine.chars]

/-! ### Single lines -/

section
variable {text : String} {before after : List TextLine} {line : TextLine}

/-- A source map keeps exactly the starts of the lines. -/
theorem toList_lineStarts (h : Lined lines text.toList) :
    (ofText text).lineStarts.toList = offsetsFrom 0 lines :=
  (toList_addLineStarts h : (addLineStarts 0 (Array.push #[] 0) text.toList).toList = _)

/-- A source map counts the lines. -/
theorem lineCount_eq (h : Lined lines text.toList) : (ofText text).lineCount = lines.length := by
  rw [lineCount, ← Array.length_toList, toList_lineStarts h, length_offsetsFrom]

/-- A line starts where the lines before it end. -/
theorem getElem?_lineStarts (h : Lined (before ++ line :: after) text.toList) :
    (ofText text).lineStarts[before.length]? =
      some (byteLength (before.flatMap TextLine.chars)) := by
  rw [← Array.getElem?_toList, toList_lineStarts h, getElem?_offsetsFrom_append, Nat.zero_add]

/-- A text around one of its lines. -/
theorem eq_append_of_lined (h : Lined (before ++ line :: after) text.toList) :
    text = String.ofList (before.flatMap TextLine.chars) ++ String.ofList line.chars ++
      String.ofList (after.flatMap TextLine.chars) := by
  rw [← String.toList_inj, ← h.flatMap_chars]
  simp

/-- A line ends where the next one starts, and the last line at the end of the text. -/
theorem getD_lineStarts (h : Lined (before ++ line :: after) text.toList) :
    (ofText text).lineStarts[before.length + 1]?.getD text.utf8ByteSize =
      byteLength (before.flatMap TextLine.chars ++ line.chars) := by
  have hbytes : ((before ++ [line]).flatMap TextLine.chars) =
      before.flatMap TextLine.chars ++ line.chars := by simp
  cases after with
  | nil =>
    have hnone : (ofText text).lineStarts[before.length + 1]? = none := by
      rw [← Array.getElem?_toList, toList_lineStarts h]
      simp
    rw [hnone, Option.getD_none, ← String.ofList_toList (s := text), utf8ByteSize_ofList,
      ← h.flatMap_chars, hbytes]
  | cons next after =>
    rw [List.append_cons] at h
    have hnext := getElem?_lineStarts h
    rw [List.length_append, List.length_singleton, hbytes] at hnext
    rw [hnext, Option.getD_some]

/-- Dropping the terminators at the end of a line leaves what it says. -/
theorem dropWhile_isLineTerminator {content terminator : List Char} (hcontent : Unbroken content)
    (hterminator : ∀ c ∈ terminator, isLineTerminator c) :
    ((content ++ terminator).reverse.dropWhile isLineTerminator).reverse = content := by
  have hall : ∀ c ∈ terminator.reverse, isLineTerminator c :=
    fun c hc => hterminator c (List.mem_reverse.mp hc)
  rw [List.reverse_append, List.dropWhile_append_of_pos hall]
  cases hlast : content.reverse with
  | nil => rw [List.reverse_eq_nil_iff.mp hlast]; rfl
  | cons c rest =>
    have hc : c ∈ content := List.mem_reverse.mp (hlast ▸ List.mem_cons_self)
    rw [List.dropWhile_cons_of_neg (hcontent c hc), ← hlast, List.reverse_reverse]

/-- Asking for a line by its number gives what it says, without the terminator. -/
theorem line?_eq (h : Lined (before ++ line :: after) text.toList) :
    (ofText text).line? (before.length + 1) = some line.text := by
  have hmem : line ∈ before ++ line :: after := by simp
  have hbetween := textBetween_append (String.ofList (before.flatMap TextLine.chars))
    (String.ofList line.chars) (String.ofList (after.flatMap TextLine.chars))
  rw [← eq_append_of_lined h, ← String.ofList_append, utf8ByteSize_ofList,
    utf8ByteSize_ofList] at hbetween
  have hcontent := dropWhile_isLineTerminator (h.unbroken line hmem) (h.forall_terminator line hmem)
  simp only [line?, Nat.succ_ne_zero, if_false, Nat.add_sub_cancel, getElem?_lineStarts h,
    Option.bind_eq_bind, Option.bind_some]
  rw [show (ofText text).text = text from rfl, getD_lineStarts h, hbetween, String.toList_ofList,
    TextLine.chars, hcontent]
  rfl

/-- The lines of a map, counted from one, are those that the text consists of. -/
theorem line?_succ (h : Lined lines text.toList) (n : Nat) :
    (ofText text).line? (n + 1) = lines[n]?.map TextLine.text := by
  cases hline : lines[n]? with
  | none =>
    have hnone : (ofText text).lineStarts[n]? = none := by
      rw [← Array.getElem?_toList, toList_lineStarts h]
      simpa using hline
    simp [line?, hnone]
  | some line =>
    obtain ⟨hn, hget⟩ := List.getElem?_eq_some_iff.mp hline
    have hsplit : lines = lines.take n ++ line :: lines.drop (n + 1) := by
      rw [← hget, ← List.drop_eq_getElem_cons hn, List.take_append_drop]
    have hlength : (lines.take n).length = n := by
      rw [List.length_take]
      omega
    have hline := line?_eq (hsplit ▸ h)
    rwa [hlength] at hline

/-- No number names a line but those from one to the number of lines. -/
theorem line?_eq_none_iff (h : Lined lines text.toList) (n : Nat) :
    (ofText text).line? n = none ↔ n = 0 ∨ (ofText text).lineCount < n := by
  cases n with
  | zero => simp [line?]
  | succ n =>
    rw [line?_succ h, Option.map_eq_none_iff, List.getElem?_eq_none_iff, lineCount_eq h]
    omega

/-- What is shown of a line holds no part of a terminator. -/
theorem unbroken_of_line? (h : Lined lines text.toList) {n : Nat} {shown : String}
    (hshown : (ofText text).line? n = some shown) : Unbroken shown.toList := by
  cases n with
  | zero => simp [line?] at hshown
  | succ n =>
    rw [line?_succ h] at hshown
    obtain ⟨line, hline, rfl⟩ := Option.map_eq_some_iff.mp hshown
    rw [TextLine.text, String.toList_ofList]
    exact h.unbroken line (List.mem_of_getElem? hline)

/-! ### Offsets on lines -/

/-- A cut of a text falls into one of its lines: before one of the characters of the line, or
at the end of the last line. -/
theorem exists_cut (hlines : lines ≠ []) (h : lines.flatMap TextLine.chars = cs ++ ds) :
    ∃ before line after current rest, lines = before ++ line :: after ∧
      line.chars = current ++ rest ∧ cs = before.flatMap TextLine.chars ++ current ∧
      (rest = [] → after = []) := by
  induction lines generalizing cs with
  | nil => exact absurd rfl hlines
  | cons line lines ih =>
    rw [List.flatMap_cons] at h
    by_cases hlast : lines = []
    · subst hlast
      exact ⟨[], line, [], cs, ds, rfl, by simpa using h, rfl, fun _ => rfl⟩
    · rcases List.append_eq_append_iff.mp h with ⟨a, rfl, ha⟩ | ⟨c, hc, rfl⟩
      · obtain ⟨before, inner, after, current, rest, rfl, hinner, rfl, hrest⟩ := ih hlast ha
        exact ⟨line :: before, inner, after, current, rest, rfl, hinner, by simp, hrest⟩
      · by_cases hnil : c = []
        · subst hnil
          obtain ⟨before, inner, after, current, rest, rfl, hinner, hcurrent, hrest⟩ :=
            @ih [] hlast rfl
          refine ⟨line :: before, inner, after, current, rest, rfl, hinner, ?_, hrest⟩
          rw [List.flatMap_cons, List.append_assoc, ← hcurrent, hc]
          simp
        · exact ⟨[], line, lines, cs, c, rfl, hc, rfl, fun h => absurd h hnil⟩

/-- A line, counted from one, stands around an offset: the offset is at or after its start and
before the end of its terminator. The end of the text is on the last line. -/
def Covers (lines : List TextLine) (o n : Nat) : Prop :=
  0 < n ∧ n ≤ lines.length ∧ bytesBefore lines (n - 1) ≤ o ∧
    (o < bytesBefore lines n ∨ n = lines.length ∧ o = bytesBefore lines n)

/-- More lines take no fewer bytes. -/
theorem bytesBefore_mono {m n : Nat} (h : m ≤ n) : bytesBefore lines m ≤ bytesBefore lines n := by
  obtain ⟨k, rfl⟩ := Nat.exists_eq_add_of_le h
  rw [bytesBefore, bytesBefore, List.take_add, List.flatMap_append, byteLength_append]
  exact Nat.le_add_right _ _

/-- At most one line stands around an offset. -/
theorem Covers.unique {m n : Nat} (hm : Covers lines o m) (hn : Covers lines o n) : m = n := by
  have hless (m n : Nat) (hm : Covers lines o m) (hn : Covers lines o n) : ¬ m < n := by
    intro hlt
    obtain ⟨-, -, -, hstop⟩ := hm
    obtain ⟨-, hle, hstart, -⟩ := hn
    have hmono : bytesBefore lines m ≤ bytesBefore lines (n - 1) := bytesBefore_mono (by omega)
    omega
  have := hless m n hm hn
  have := hless n m hn hm
  omega

section
variable {before after : List TextLine} {line : TextLine} {current rest : List Char}

/-- An offset inside of a line is on that line. -/
theorem covers_cut (hline : line.chars = current ++ rest) (hrest : rest = [] → after = []) :
    Covers (before ++ line :: after) (byteLength (before.flatMap TextLine.chars ++ current))
      (before.length + 1) := by
  have hbefore : bytesBefore (before ++ line :: after) before.length =
      byteLength (before.flatMap TextLine.chars) := by simp [bytesBefore]
  have hline : bytesBefore (before ++ line :: after) (before.length + 1) =
      byteLength (before.flatMap TextLine.chars ++ current) + byteLength rest := by
    rw [bytesBefore, List.take_length_add_append, ← byteLength_append, List.append_assoc, ← hline]
    simp
  refine ⟨Nat.succ_pos _, by simp, ?_, ?_⟩
  · rw [Nat.add_sub_cancel, hbefore, byteLength_append]
    omega
  · rw [hline]
    by_cases hnil : rest = []
    · right
      simp [hnil, hrest hnil]
    · have := byteLength_pos hnil
      omega

/-- Of the lines those start at or before a cut that come up to the one with the cut. -/
theorem countP_offsetsFrom (hline : line.chars = current ++ rest) (hrest : rest = [] → after = []) :
    (offsetsFrom 0 (before ++ line :: after)).countP
      (· ≤ byteLength (before.flatMap TextLine.chars ++ current)) = before.length + 1 := by
  rw [byteLength_append]
  have hbefore : (offsetsFrom 0 before).countP
      (· ≤ byteLength (before.flatMap TextLine.chars) + byteLength current) = before.length := by
    have hlength : (offsetsFrom 0 before).length = before.length := length_offsetsFrom
    rw [← hlength, List.countP_eq_length]
    intro n hn
    have := bounds_offsetsFrom hn
    exact decide_eq_true (by omega)
  have hafter : (offsetsFrom (byteLength (before.flatMap TextLine.chars) + byteLength line.chars)
      after).countP (· ≤ byteLength (before.flatMap TextLine.chars) + byteLength current) = 0 := by
    rw [List.countP_eq_zero]
    intro n hn
    have hle := (bounds_offsetsFrom hn).1
    have hpos : 0 < byteLength rest := byteLength_pos fun hnil => by
      rw [hrest hnil] at hn
      cases hn
    rw [hline, byteLength_append] at hle
    simp only [decide_eq_true_eq]
    omega
  rw [offsetsFrom_append, List.countP_append, hbefore, Nat.zero_add, offsetsFrom, List.countP_cons,
    hafter]
  simp

/-- Looking a cut up gives the line in which it falls, and the column after the characters of
the line before it. -/
theorem positionAt_cut (h : Lined (before ++ line :: after) text.toList)
    (hline : line.chars = current ++ rest) (hrest : rest = [] → after = []) :
    (ofText text).positionAt (byteLength (before.flatMap TextLine.chars ++ current)) =
      ⟨byteLength (before.flatMap TextLine.chars ++ current), before.length + 1,
        current.length + 1⟩ := by
  have htext : text = String.ofList (before.flatMap TextLine.chars) ++ String.ofList current ++
      String.ofList (rest ++ after.flatMap TextLine.chars) := by
    rw [← String.toList_inj, ← h.flatMap_chars]
    simp [hline]
  have hbetween := textBetween_append (String.ofList (before.flatMap TextLine.chars))
    (String.ofList current) (String.ofList (rest ++ after.flatMap TextLine.chars))
  have hboundary := boundaryAtOrBefore_append
    (String.ofList (before.flatMap TextLine.chars) ++ String.ofList current)
    (String.ofList (rest ++ after.flatMap TextLine.chars))
  rw [← htext, ← String.ofList_append, utf8ByteSize_ofList] at hbetween hboundary
  rw [utf8ByteSize_ofList] at hbetween
  have hle : byteLength (before.flatMap TextLine.chars ++ current) ≤ text.utf8ByteSize := by
    rw [htext, String.utf8ByteSize_append, ← String.ofList_append, utf8ByteSize_ofList]
    exact Nat.le_add_right _ _
  have hcount := @countP_offsetsFrom before after line current rest hline hrest
  unfold positionAt
  rw [show (ofText text).text = text from rfl, Nat.min_eq_left hle, hboundary]
  dsimp only
  rw [← Array.foldl_toList, foldl_count, toList_lineStarts h, hcount, Nat.zero_add,
    Nat.add_sub_cancel, getElem?_lineStarts h, Option.getD_some, hbetween, String.length_ofList]

end

/-- A place on a line: the offset comes after some characters of the line, which its column
counts. -/
def OnLine (lines : List TextLine) (p : Position) : Prop :=
  ∃ line, lines[p.line - 1]? = some line ∧ 0 < p.column ∧ p.column - 1 ≤ line.chars.length ∧
    p.offset = bytesBefore lines (p.line - 1) + byteLength (line.chars.take (p.column - 1))

/-- The place behind some characters of a line is on it, in the column that they count. -/
theorem onLine_cut {before after : List TextLine} {line : TextLine} {current rest : List Char}
    (hline : line.chars = current ++ rest) :
    OnLine (before ++ line :: after) ⟨byteLength (before.flatMap TextLine.chars ++ current),
      before.length + 1, current.length + 1⟩ := by
  refine ⟨line, by simp, Nat.succ_pos _, by simp [hline], ?_⟩
  simp [bytesBefore, byteLength_append, hline]

/-- Every character boundary of a text is a place on the one line around it. -/
theorem positionAt_of_isValid (h : Lined lines text.toList)
    (ho : String.Pos.Raw.IsValid text ⟨o⟩) :
    ((ofText text).positionAt o).offset = o ∧
      (∀ n, Covers lines o n ↔ n = ((ofText text).positionAt o).line) ∧
      OnLine lines ((ofText text).positionAt o) := by
  obtain ⟨a, b, htext, ha⟩ := String.Pos.Raw.isValid_iff_exists_append.mp ho
  have hbytes : o = byteLength a.toList := by
    rw [← utf8ByteSize_ofList, String.ofList_toList]
    exact congrArg String.Pos.Raw.byteIdx ha
  have hchars := h.flatMap_chars
  rw [htext, String.toList_append] at hchars
  obtain ⟨before, line, after, current, rest, rfl, hline, hcut, hrest⟩ :=
    exists_cut h.ne_nil hchars
  rw [hbytes, hcut, positionAt_cut h hline hrest]
  have hcovers := @covers_cut before after line current rest hline hrest
  refine ⟨rfl, fun n => ⟨fun hn => hn.unique hcovers, ?_⟩, onLine_cut hline⟩
  rintro rfl
  exact hcovers

end

/-- The lines of a source map partition its text. There is one line more than there are
terminators, and the lines with their terminators give the text back. The map shows just these
lines, without any terminator. Looking a character boundary up gives the one line around it,
with its terminator, and the column after the characters of that line before it. -/
theorem lines_partition_text (text : String) :
    ∃ lines : List TextLine, Lined lines text.toList ∧
      lines.flatMap TextLine.chars = text.toList ∧
      (ofText text).lineCount = lines.length ∧
      (ofText text).lineCount = terminatorCount text.toList + 1 ∧
      (∀ n, (ofText text).line? (n + 1) = lines[n]?.map TextLine.text) ∧
      (∀ n, (ofText text).line? n = none ↔ n = 0 ∨ (ofText text).lineCount < n) ∧
      (∀ n shown, (ofText text).line? n = some shown →
        '\n' ∉ shown.toList ∧ '\r' ∉ shown.toList) ∧
      ∀ o, String.Pos.Raw.IsValid text ⟨o⟩ →
        ((ofText text).positionAt o).offset = o ∧
        (∀ n, Covers lines o n ↔ n = ((ofText text).positionAt o).line) ∧
        OnLine lines ((ofText text).positionAt o) := by
  have h : Lined (linesFrom [] text.toList) text.toList := lined_linesFrom unbroken_nil
  refine ⟨_, h, h.flatMap_chars, lineCount_eq h, by rw [lineCount_eq h, h.length_eq],
    line?_succ h, line?_eq_none_iff h, ?_, fun o ho => positionAt_of_isValid h ho⟩
  intro n shown hshown
  have hunbroken := unbroken_of_line? h hshown
  exact ⟨fun hfeed => hunbroken _ hfeed rfl, fun hreturn => hunbroken _ hreturn rfl⟩

/-- Two carriage returns and a line feed are two terminators. The place between the last two of
them is on the second line, after the first character of the pair that ends it. -/
theorem lines_partition_returns_feed :
    String.Pos.Raw.IsValid "é\r\r\n" ⟨4⟩ ∧ (ofText "é\r\r\n").lineCount = 2 + 1 ∧
      (ofText "é\r\r\n").line? 4 = none ∧ (ofText "é\r\r\n").positionAt 4 = ⟨4, 2, 2⟩ ∧
      ∃ lines, Lined lines "é\r\r\n".toList ∧ Covers lines 4 2 ∧ OnLine lines ⟨4, 2, 2⟩ := by
  obtain ⟨lines, hlined, -, -, hcount, -, hnone, -, hplace⟩ := lines_partition_text "é\r\r\n"
  have hvalid : String.Pos.Raw.IsValid "é\r\r\n" ⟨4⟩ :=
    String.Pos.Raw.isValid_iff_exists_append.mpr ⟨"é\r\r", "\n", rfl, rfl⟩
  have hthree : (ofText "é\r\r\n").lineCount = 2 + 1 := hcount
  have hposition : (ofText "é\r\r\n").positionAt 4 = ⟨4, 2, 2⟩ := by decide +kernel
  obtain ⟨-, hcovers, honline⟩ := hplace 4 hvalid
  rw [hposition] at hcovers honline
  exact ⟨hvalid, hthree, (hnone 4).mpr (by rw [hthree]; omega), hposition, lines, hlined,
    (hcovers 2).mpr rfl, honline⟩

end SourceMap

end JavaSyntax
