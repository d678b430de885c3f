import JavaSyntax.Proofs.Text.Slices
import JavaSyntax.Settings.Basic
import JavaSyntax.Text.SourceMap

/-!
# Lines of a text

A position can be found in two ways: by walking over the text before it, or by looking its
offset up in the starts of the lines. Both count a carriage return with its line feed as one
terminator. They agree wherever a text can be cut without separating such a pair.
-/

namespace JavaSyntax

variable {before after read cs ds : List Char} {p : Position} {starts : Array Nat} {o : Nat}

/-! ### Cuts -/

/-- A cut between a carriage return and its line feed, inside one terminator. -/
def SplitsTerminator (before after : List Char) : Prop :=
  before.getLast? = some '\r' ∧ after.head? = some '\n'

/-- Nothing is separated before the first character. -/
theorem not_splitsTerminator_nil (after : List Char) : ¬ SplitsTerminator [] after :=
  fun h => nomatch h.1

/-- What comes before the last characters does not matter to a cut. -/
theorem splitsTerminator_append_iff (h : cs ≠ []) :
    SplitsTerminator (before ++ cs) after ↔ SplitsTerminator cs after := by
  obtain ⟨last, hlast⟩ : ∃ last, cs.getLast? = some last :=
    ⟨_, List.getLast?_eq_some_getLast h⟩
  simp [SplitsTerminator, List.getLast?_append, hlast]

/-- Induction over characters that are followed by others without a separated pair: a pair is
taken as a whole, and every other character is taken on its own. -/
theorem cutInduction {motive : List Char → Prop} (after : List Char) (nil : motive [])
    (pair : ∀ rest, motive rest → motive ('\r' :: '\n' :: rest))
    (single : ∀ c rest, ¬ SplitsTerminator [c] rest → ¬ SplitsTerminator [c] (rest ++ after) →
      motive rest → motive (c :: rest)) :
    ∀ cs, ¬ SplitsTerminator cs after → motive cs
  | [], _ => nil
  | [c], h => single c [] (fun hsplits => nomatch hsplits.2) h nil
  | c :: d :: rest, h => by
    have htail : motive (d :: rest) := by
      refine cutInduction after nil pair single (d :: rest) fun hsplits => h ?_
      exact ⟨by simpa using hsplits.1, hsplits.2⟩
    by_cases hpair : SplitsTerminator [c] (d :: rest)
    · obtain ⟨hreturn, hfeed⟩ := hpair
      cases hreturn
      cases hfeed
      refine pair rest ?_
      cases rest with
      | nil => exact nil
      | cons e rest =>
        refine cutInduction after nil pair single (e :: rest) fun hsplits => h ?_
        exact ⟨by simpa using hsplits.1, hsplits.2⟩
    · exact single c (d :: rest) hpair (fun hsplits => hpair hsplits) htail

/-! ### Walking over a text -/

namespace Position

/-- A character is passed on its own unless it starts a pair. -/
theorem advanceChars_cons {c : Char} (h : ¬ SplitsTerminator [c] cs) :
    p.advanceChars (c :: cs) = (p.advance c).advanceChars cs := by
  rw [advanceChars]
  rintro rest rfl rfl
  exact h ⟨rfl, rfl⟩

/-- A walk can be interrupted wherever no pair is separated. -/
theorem advanceChars_append (h : ¬ SplitsTerminator cs ds) :
    p.advanceChars (cs ++ ds) = (p.advanceChars cs).advanceChars ds := by
  refine cutInduction (motive := fun cs => ∀ p : Position,
    p.advanceChars (cs ++ ds) = (p.advanceChars cs).advanceChars ds) ds ?_ ?_ ?_ cs h p
  · exact fun p => rfl
  · intro rest ih p
    rw [List.cons_append, List.cons_append, advanceChars, advanceChars]
    exact ih _
  · intro c rest hrest hall ih p
    rw [List.cons_append, advanceChars_cons hall, advanceChars_cons hrest]
    exact ih _

/-- The place after one more character, for a reader who does not look ahead and remembers
whether the character before was a carriage return. A line feed after it is only passed. -/
def step (p : Position) (afterReturn : Bool) (c : Char) : Position :=
  if c = '\n' ∧ afterReturn = true then ⟨p.offset + 1, p.line, p.column⟩ else p.advance c

/-- The place to which such a reader comes. -/
def walk (p : Position) (afterReturn : Bool) : List Char → Position
  | [] => p
  | c :: cs => walk (p.step afterReturn c) (c == '\r') cs

/-- To look ahead for a line feed and to remember a carriage return come to the same. -/
theorem walk_eq_advanceChars {afterReturn : Bool}
    (h : afterReturn = true → cs.head? ≠ some '\n') :
    p.walk afterReturn cs = p.advanceChars cs := by
  fun_induction advanceChars p cs generalizing afterReturn with
  | case1 p => rfl
  | case2 p rest ih =>
    have hrest : walk ⟨p.offset + 2, p.line + 1, 1⟩ false rest = _ := ih (by simp)
    rw [← hrest, walk, walk]
    simp [step, advance, isLineTerminator]
  | case3 p c rest hne ih =>
    have hstep : p.step afterReturn c = p.advance c := by
      rw [step, if_neg]
      rintro ⟨rfl, hreturn⟩
      exact h hreturn rfl
    rw [walk, hstep]
    refine ih fun hreturn hfeed => ?_
    obtain ⟨rest', rfl⟩ := List.head?_eq_some_iff.mp hfeed
    exact hne rest' (eq_of_beq hreturn) rfl

end Position

/-! ### Starts of lines -/

namespace SourceMap

/-- The lines of the characters that were read: where they start, in order, and the position
after them. -/
structure Lines (read : List Char) (p : Position) (starts : Array Nat) : Prop where
  offset_eq : p.offset = byteLength read
  line_eq : p.line = starts.size
  starts_le : ∀ n ∈ starts, n ≤ p.offset
  /-- The last line starts after some of the characters and holds the others. -/
  exists_current : ∃ done current, read = done ++ current ∧ p.column = current.length + 1 ∧
    starts.back? = some (byteLength done)

/-- Before anything is read there is one line, which starts at the beginning. -/
theorem lines_start : Lines [] .start #[0] where
  offset_eq := rfl
  line_eq := rfl
  starts_le := by simp [Position.start]
  exists_current := ⟨[], [], rfl, rfl, rfl⟩

/-- A terminator opens a line. -/
theorem Lines.terminate (h : Lines read p starts) (hcs : o = p.offset + byteLength cs) :
    Lines (read ++ cs) ⟨o, p.line + 1, 1⟩ (starts.push o) where
  offset_eq := by rw [byteLength_append, ← h.offset_eq, hcs]
  line_eq := by rw [h.line_eq, Array.size_push]
  starts_le := by
    intro n hn
    rcases Array.mem_push.mp hn with hn | rfl
    · have hle := h.starts_le n hn
      dsimp only
      omega
    · exact Nat.le_refl _
  exists_current :=
    ⟨read ++ cs, [], by simp, rfl, by
      rw [Array.back?_push, byteLength_append, ← h.offset_eq, hcs]⟩

/-- A character that is read moves the position on, and starts a line if it ends one. -/
theorem Lines.advance (h : Lines read p starts) (c : Char) :
    Lines (read ++ [c]) (p.advance c)
      (if isLineTerminator c then starts.push (p.offset + c.utf8Size) else starts) := by
  have hoffset := p.offset_advance c
  by_cases hc : isLineTerminator c
  · have hone : p.offset + c.utf8Size = p.offset + 1 := by
      rw [← hoffset, Position.advance, if_pos hc]
    rw [if_pos hc, hone, Position.advance, if_pos hc]
    exact h.terminate (by simp [← hone])
  · rw [if_neg hc, Position.advance, if_neg hc]
    obtain ⟨done, current, hread, hcolumn, hback⟩ := h.exists_current
    refine ⟨by simp [byteLength_append, ← h.offset_eq], h.line_eq, ?_, ?_⟩
    · intro n hn
      exact Nat.le_trans (h.starts_le n hn) (Nat.le_add_right _ _)
    · exact ⟨done, current ++ [c], by simp [hread], by simp [hcolumn], hback⟩

/-- Walking over characters and adding the starts of their lines keep step. -/
theorem Lines.walk (h : Lines read p starts) (cs : List Char) :
    Lines (read ++ cs) (p.advanceChars cs) (addLineStarts p.offset starts cs) := by
  fun_induction Position.advanceChars p cs generalizing read starts with
  | case1 p => simpa [addLineStarts] using h
  | case2 p rest ih =>
    have hpair : Lines (read ++ ['\r', '\n']) ⟨p.offset + 2, p.line + 1, 1⟩
        (starts.push (p.offset + 2)) := h.terminate rfl
    simpa [addLineStarts] using ih hpair
  | case3 p c rest hne ih =>
    have hnext := ih (h.advance c)
    rw [p.offset_advance] at hnext
    rw [addLineStarts]
    · simpa using hnext
    · exact hne

/-- New starts come at the end, and after the place where the characters begin. -/
theorem exists_addLineStarts (o : Nat) (starts : Array Nat) (cs : List Char) :
    ∃ more : List Nat, (addLineStarts o starts cs).toList = starts.toList ++ more ∧
      ∀ n ∈ more, o < n := by
  fun_induction addLineStarts o starts cs with
  | case1 => exact ⟨[], by simp, nofun⟩
  | case2 o starts rest ih =>
    obtain ⟨more, hmore, hlt⟩ := ih
    refine ⟨(o + 2) :: more, by simp [hmore], ?_⟩
    intro n hn
    rcases List.mem_cons.mp hn with rfl | hn
    · omega
    · have := hlt n hn
      omega
  | case3 o starts c rest hne next ih =>
    obtain ⟨more, hmore, hlt⟩ := ih
    have hsize := c.utf8Size_pos
    have hafter (n : Nat) (hn : n ∈ more) : o < n := by
      have := hlt n hn
      omega
    by_cases hc : isLineTerminator c
    · rw [if_pos hc] at hmore
      refine ⟨next :: more, by simp [hc, hmore], ?_⟩
      intro n hn
      rcases List.mem_cons.mp hn with rfl | hn
      · omega
      · exact hafter n hn
    · rw [if_neg hc] at hmore
      exact ⟨more, by simp [hc, hmore], hafter⟩

/-- One more character, which is no carriage return before its line feed, adds the start behind it
if it ends a line. -/
theorem addLineStarts_cons {c : Char} (h : ¬ SplitsTerminator [c] cs) :
    addLineStarts o starts (c :: cs) = addLineStarts (o + c.utf8Size)
      (if isLineTerminator c then starts.push (o + c.utf8Size) else starts) cs := by
  rw [addLineStarts]
  rintro rest rfl rfl
  exact h ⟨rfl, rfl⟩

/-- Starts of lines can be added in two goes wherever no pair is separated. -/
theorem addLineStarts_append (h : ¬ SplitsTerminator cs ds) :
    addLineStarts o starts (cs ++ ds) =
      addLineStarts (o + byteLength cs) (addLineStarts o starts cs) ds := by
  refine cutInduction (motive := fun cs => ∀ o starts,
    addLineStarts o starts (cs ++ ds) =
      addLineStarts (o + byteLength cs) (addLineStarts o starts cs) ds) ds ?_ ?_ ?_ cs h o starts
  · exact fun o starts => rfl
  · intro rest ih o starts
    have hreturn : ('\r' : Char).utf8Size = 1 := by decide
    have hfeed : ('\n' : Char).utf8Size = 1 := by decide
    rw [List.cons_append, List.cons_append, addLineStarts, addLineStarts, ih, byteLength_cons,
      byteLength_cons, hreturn, hfeed]
    congr 1
    omega
  · intro c rest hrest hall ih o starts
    rw [List.cons_append, addLineStarts_cons hall, addLineStarts_cons hrest, ih,
      byteLength_cons, Nat.add_assoc]

/-! ### Looking a position up -/

/-- How many of some numbers are at most another one. -/
theorem foldl_count (o n : Nat) (l : List Nat) :
    l.foldl (fun n start => if start ≤ o then n + 1 else n) n = n + l.countP (· ≤ o) := by
  induction l generalizing n with
  | nil => rfl
  | cons start l ih =>
    rw [List.foldl_cons, ih, List.countP_cons]
    by_cases hle : start ≤ o
    · simp only [hle, if_true, decide_true]
      omega
    · simp [hle]

/-- An offset between two parts of a text is a character boundary. -/
theorem boundaryAtOrBefore_append (a b : String) :
    boundaryAtOrBefore (a ++ b) a.utf8ByteSize = a.utf8ByteSize := by
  obtain ⟨p, hp, -⟩ := pos?_append a b
  generalize a.utf8ByteSize = n at hp
  cases n with
  | zero => rfl
  | succ n => rw [boundaryAtOrBefore, hp, Option.isSome_some, if_pos rfl]

/-- Of the starts of a text's lines exactly those are at or before a cut that are found in the
text before it. -/
theorem lineStarts_of_cut (h : ¬ SplitsTerminator cs ds)
    (hcs : Lines cs p (addLineStarts 0 #[0] cs)) :
    (addLineStarts 0 #[0] (cs ++ ds)).toList.countP (· ≤ p.offset) = p.line ∧
      (addLineStarts 0 #[0] (cs ++ ds))[p.line - 1]? = (addLineStarts 0 #[0] cs).back? := by
  rw [addLineStarts_append h, Nat.zero_add, ← hcs.offset_eq]
  obtain ⟨more, hmore, hlt⟩ := exists_addLineStarts p.offset (addLineStarts 0 #[0] cs) ds
  have hlength : (addLineStarts 0 #[0] cs).toList.length = p.line := by
    rw [hcs.line_eq, Array.length_toList]
  constructor
  · have hbefore : (addLineStarts 0 #[0] cs).toList.countP (· ≤ p.offset) = p.line := by
      rw [← hlength, List.countP_eq_length]
      intro n hn
      exact decide_eq_true (hcs.starts_le n (Array.mem_toList_iff.mp hn))
    have hafter : more.countP (· ≤ p.offset) = 0 := by
      rw [List.countP_eq_zero]
      intro n hn
      have := hlt n hn
      simp only [decide_eq_true_eq]
      omega
    rw [hmore, List.countP_append, hbefore, hafter, Nat.add_zero]
  · have hpos : 0 < p.line := by
      obtain ⟨done, current, -, -, hback⟩ := hcs.exists_current
      rw [hcs.line_eq, Array.size_pos_iff]
      rintro hnil
      rw [hnil] at hback
      cases hback
    rw [← Array.getElem?_toList, hmore, List.getElem?_append_left (by omega),
      Array.back?_eq_getElem?, ← Array.getElem?_toList, hcs.line_eq]

/-- Looking an offset up gives the position to which one comes by walking there, unless it
separates a carriage return from its line feed. -/
theorem positionAt_append (a b : String) (h : ¬ SplitsTerminator a.toList b.toList) :
    (ofText (a ++ b)).positionAt a.utf8ByteSize = Position.start.advanceText a := by
  have hlines := lines_start.walk a.toList
  rw [List.nil_append] at hlines
  change Lines a.toList (Position.start.advanceText a) (addLineStarts 0 #[0] a.toList) at hlines
  have hoffset : (Position.start.advanceText a).offset = a.utf8ByteSize := by
    rw [hlines.offset_eq, ← utf8ByteSize_ofList, String.ofList_toList]
  obtain ⟨hcount, hstart⟩ := lineStarts_of_cut h hlines
  obtain ⟨done, current, hread, hcolumn, hback⟩ := hlines.exists_current
  have hcurrent : textBetween (a ++ b) (byteLength done) a.utf8ByteSize =
      String.ofList current := by
    have ha : a = String.ofList done ++ String.ofList current := by
      rw [← String.ofList_append, ← hread, String.ofList_toList]
    have hbetween := textBetween_append (String.ofList done) (String.ofList current) b
    rwa [← ha, utf8ByteSize_ofList] at hbetween
  have hmin : min a.utf8ByteSize (a ++ b).utf8ByteSize = a.utf8ByteSize := by
    rw [String.utf8ByteSize_append]
    omega
  unfold positionAt ofText
  simp only [hmin, boundaryAtOrBefore_append, String.toList_append]
  rw [← Array.foldl_toList, foldl_count, Nat.zero_add, ← hoffset, hcount, hstart, hback,
    Option.getD_some, hoffset, hcurrent, String.length_ofList, ← hcolumn]
  simp [← hoffset]

end SourceMap

/-! ### Places in a text -/

/-- A position up to which a text has been read, with `rest` left of it. -/
def Position.Leaves (text : String) (rest : List Char) (p : Position) : Prop :=
  ∃ read, text.toList = read ++ rest ∧ ¬ SplitsTerminator read rest ∧
    p = Position.start.advanceChars read

/-- A span whose ends are what looking their offsets up gives. -/
structure Span.Placed (text : String) (s : Span) : Prop where
  start_eq : (SourceMap.ofText text).positionAt s.start.offset = s.start
  stop_eq : (SourceMap.ofText text).positionAt s.stop.offset = s.stop

namespace Position.Leaves

variable {text : String} {rest : List Char} {q : Position}

/-- At the start the whole text is left. -/
theorem start (text : String) : Position.start.Leaves text text.toList :=
  ⟨[], rfl, not_splitsTerminator_nil _, rfl⟩

/-- Reading on does not separate a pair if it stops at a place that does not. -/
theorem advance (h : p.Leaves text (cs ++ rest)) (hcs : cs ≠ [])
    (hcut : ¬ SplitsTerminator cs rest) : (p.advanceChars cs).Leaves text rest := by
  obtain ⟨read, htext, hread, rfl⟩ := h
  refine ⟨read ++ cs, by simp [htext], fun h => hcut ((splitsTerminator_append_iff hcs).mp h), ?_⟩
  rw [advanceChars_append]
  rintro ⟨hreturn, hfeed⟩
  cases cs with
  | nil => exact hcs rfl
  | cons c cs => exact hread ⟨hreturn, hfeed⟩

/-- Looking up the offset of a position up to which a text was read gives that position. -/
theorem positionAt_eq (h : p.Leaves text rest) :
    (SourceMap.ofText text).positionAt p.offset = p := by
  obtain ⟨read, htext, hread, rfl⟩ := h
  have hsplit : text = String.ofList read ++ String.ofList rest := by
    rw [← String.ofList_append, ← htext, String.ofList_toList]
  have hposition := SourceMap.positionAt_append (String.ofList read) (String.ofList rest)
    (by simpa using hread)
  rw [← hsplit, utf8ByteSize_ofList] at hposition
  rw [offset_advanceChars]
  simpa [Position.start, advanceText] using hposition

/-- A span between two positions up to which a text was read has the ends that a lookup gives. -/
theorem placed (hp : p.Leaves text cs) (hq : q.Leaves text rest) : Span.Placed text ⟨p, q⟩ :=
  ⟨hp.positionAt_eq, hq.positionAt_eq⟩

end Position.Leaves

/-! ### Words of 32 bits -/

/-- Walking over characters adds at most one to the line or to the column for each of them. -/
theorem Position.advanceChars_le (p : Position) (cs : List Char) :
    (p.advanceChars cs).line ≤ p.line + cs.length ∧
      (p.advanceChars cs).column ≤ max p.column 1 + cs.length := by
  fun_induction Position.advanceChars p cs with
  | case1 p =>
    rw [List.length_nil]
    omega
  | case2 p rest ih =>
    simp only [List.length_cons] at ih ⊢
    omega
  | case3 p c rest _ ih =>
    have hstep : (p.advance c).line ≤ p.line + 1 ∧ (p.advance c).column ≤ max p.column 1 + 1 := by
      unfold advance
      split <;> simp only <;> omega
    rw [List.length_cons]
    omega

/-- Characters have one byte each at least. -/
theorem length_le_byteLength (cs : List Char) : cs.length ≤ byteLength cs := by
  induction cs with
  | nil => simp
  | cons c cs ih =>
    have hc := c.utf8Size_pos
    rw [byteLength_cons, List.length_cons]
    omega

/-- A text has no more characters than bytes. -/
theorem length_le_utf8ByteSize (text : String) : text.length ≤ text.utf8ByteSize := by
  have hchars := length_le_byteLength text.toList
  rwa [← utf8ByteSize_ofList, String.ofList_toList, String.length_toList] at hchars

/-- A part of a text has no more characters than the text has bytes. -/
theorem length_textBetween_le (text : String) (start stop : Nat) :
    (textBetween text start stop).length ≤ text.utf8ByteSize := by
  refine Nat.le_trans (length_le_utf8ByteSize _) ?_
  unfold textBetween
  split
  · split
    · rw [← String.size_toByteArray, String.toByteArray_extract, ByteArray.size_extract,
        String.size_toByteArray]
      omega
    · simp
  · simp

/-- Each character adds one start of a line at most. -/
theorem SourceMap.size_addLineStarts_le (o : Nat) (starts : Array Nat) (cs : List Char) :
    (addLineStarts o starts cs).size ≤ starts.size + cs.length := by
  fun_induction addLineStarts o starts cs with
  | case1 => simp
  | case2 o starts rest ih =>
    simp only [Array.size_push, List.length_cons] at ih ⊢
    omega
  | case3 o starts c rest _ next ih =>
    have hpush : (if isLineTerminator c then starts.push next else starts).size ≤
        starts.size + 1 := by
      split <;> simp
    rw [List.length_cons]
    omega

/-- All lines and columns to which one walks in a text fit into 32 bits, if the number of its bytes
does with one to spare. -/
theorem Position.advanceText_lt {text : String} (h : text.utf8ByteSize + 1 < UInt32.size) :
    (Position.start.advanceText text).line < UInt32.size ∧
      (Position.start.advanceText text).column < UInt32.size := by
  have hchars := length_le_utf8ByteSize text
  obtain ⟨hline, hcolumn⟩ := Position.start.advanceChars_le text.toList
  rw [String.length_toList] at hline hcolumn
  rw [advanceText]
  simp only [start] at hline hcolumn ⊢
  omega

/-- So do all lines and columns that are looked up. Cutting them to a word leaves them as they
are. -/
theorem SourceMap.positionAt_lt {text : String} (h : text.utf8ByteSize + 1 < UInt32.size)
    (offset : Nat) :
    ((ofText text).positionAt offset).line < UInt32.size ∧
      ((ofText text).positionAt offset).column < UInt32.size := by
  unfold positionAt
  dsimp only
  constructor
  · rw [← Array.foldl_toList, foldl_count, Nat.zero_add]
    refine Nat.lt_of_le_of_lt List.countP_le_length ?_
    have hstarts : (ofText text).lineStarts.size ≤ 1 + text.toList.length :=
      size_addLineStarts_le 0 #[0] text.toList
    have hchars := length_le_utf8ByteSize text
    rw [String.length_toList] at hstarts
    rw [Array.length_toList]
    omega
  · refine Nat.lt_of_le_of_lt (Nat.succ_le_succ (length_textBetween_le _ _ _)) ?_
    change text.utf8ByteSize + 1 < UInt32.size
    omega

-- Files that are larger than this are refused before they are read.
example : Limits.maxFileSize + 1 < UInt32.size := by decide

end JavaSyntax
