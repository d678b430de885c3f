import JavaSyntax.Proofs.Text.Partition

/-!
# Carets under a line

An error is drawn under the line on which its span starts, with blanks up to the column of the
start and carets from there on. A line is shown without its terminator, so it is shorter than the
line of the text, and an offset between a carriage return and its line feed has a column behind
all that is shown. There is no room for carets then if the span goes on below the line. Everywhere
else the carets stay under the line, or right behind it.
-/

namespace JavaSyntax

variable {cs ds : List Char} {o : Nat}

/-- An offset between the carriage return and the line feed of one terminator. -/
def InsideTerminator (text : String) (o : Nat) : Prop :=
  ∃ before after, text.toList = before ++ '\r' :: '\n' :: after ∧ o = byteLength before + 1

/-! ### Offsets that are no character boundaries -/

/-- The characters of a text before an offset are some of it: all that end at or before the
offset. The offset falls into the character that comes next. -/
structure CutAt (text : String) (o : Nat) (cs ds : List Char) : Prop where
  toList_eq : text.toList = cs ++ ds
  le : byteLength cs ≤ o
  lt : ∀ c rest, ds = c :: rest → o < byteLength cs + c.utf8Size

namespace CutAt

variable {text : String} {cs' ds' : List Char} {o' : Nat}

/-- Every offset has characters before it and behind it. -/
theorem exists_split (text : String) (o : Nat) : ∃ cs ds, CutAt text o cs ds := by
  have hchars (chars : List Char) : ∀ o, ∃ cs ds, chars = cs ++ ds ∧ byteLength cs ≤ o ∧
      ∀ c rest, ds = c :: rest → o < byteLength cs + c.utf8Size := by
    induction chars with
    | nil => exact fun o => ⟨[], [], rfl, Nat.zero_le o, nofun⟩
    | cons c chars ih =>
      intro o
      by_cases hlt : o < c.utf8Size
      · refine ⟨[], c :: chars, rfl, Nat.zero_le o, ?_⟩
        rintro _ _ ⟨⟩
        simpa using hlt
      · obtain ⟨cs, ds, rfl, hle, hnext⟩ := ih (o - c.utf8Size)
        refine ⟨c :: cs, ds, rfl, by rw [byteLength_cons]; omega, ?_⟩
        intro d rest hds
        have := hnext d rest hds
        rw [byteLength_cons]
        omega
  obtain ⟨cs, ds, htext, hle, hlt⟩ := hchars text.toList o
  exact ⟨cs, ds, htext, hle, hlt⟩

/-- Of two beginnings of a text one goes on with what the other one leaves. -/
private theorem comparable (h : text.toList = cs ++ ds) (h' : text.toList = cs' ++ ds') :
    (∃ c rest, cs = cs' ++ c :: rest ∧ ds' = c :: (rest ++ ds)) ∨ ∃ more, cs' = cs ++ more := by
  rcases List.append_eq_append_iff.mp (h.symm.trans h') with ⟨more, hmore, -⟩ | ⟨more, hmore, hrest⟩
  · exact .inr ⟨more, hmore⟩
  · cases more with
    | nil => exact .inr ⟨[], by simpa using hmore.symm⟩
    | cons c rest => exact .inl ⟨c, rest, hmore, hrest⟩

/-- A later offset has no fewer characters before it. -/
theorem exists_append (h : CutAt text o cs ds) (h' : CutAt text o' cs' ds') (hle : o ≤ o') :
    ∃ more, cs' = cs ++ more := by
  rcases comparable h.toList_eq h'.toList_eq with ⟨c, rest, rfl, hrest⟩ | hmore
  · have hlt := h'.lt c _ hrest
    have hcs := h.le
    rw [byteLength_append, byteLength_cons] at hcs
    omega
  · exact hmore

/-- The characters before an offset are determined by it. -/
theorem unique (h : CutAt text o cs ds) (h' : CutAt text o cs' ds') : cs = cs' := by
  obtain ⟨more, rfl⟩ := h.exists_append h' (Nat.le_refl o)
  obtain ⟨more', heq⟩ := h'.exists_append h (Nat.le_refl o)
  have hlength := congrArg List.length heq
  simp only [List.length_append] at hlength
  rw [List.eq_nil_of_length_eq_zero (show more.length = 0 by omega), List.append_nil]

/-- An offset inside a terminator has a carriage return before it and a line feed after it. -/
theorem insideTerminator_iff (h : CutAt text o cs ds) :
    InsideTerminator text o ↔ SplitsTerminator cs ds := by
  have hreturn : ('\r' : Char).utf8Size = 1 := by decide
  have hfeed : ('\n' : Char).utf8Size = 1 := by decide
  constructor
  · rintro ⟨before, after, htext, rfl⟩
    have hsplit : CutAt text (byteLength before + 1) (before ++ ['\r']) ('\n' :: after) := by
      refine ⟨by simp [htext], ?_, ?_⟩
      · rw [byteLength_append, byteLength_cons, hreturn]
        exact Nat.le_refl _
      · rintro _ _ ⟨⟩
        rw [byteLength_append, byteLength_cons, hreturn, hfeed]
        exact Nat.lt_succ_self _
    obtain rfl := h.unique hsplit
    have hds : ds = '\n' :: after :=
      List.append_cancel_left (h.toList_eq.symm.trans hsplit.toList_eq)
    exact ⟨by simp, by rw [hds]; rfl⟩
  · rintro ⟨hlast, hfirst⟩
    obtain ⟨before, rfl⟩ := List.getLast?_eq_some_iff.mp hlast
    obtain ⟨after, rfl⟩ := List.head?_eq_some_iff.mp hfirst
    have hle := h.le
    have hlt := h.lt '\n' after rfl
    rw [byteLength_append, byteLength_cons, hreturn, byteLength_nil] at hle hlt
    exact ⟨before, after, by simp [h.toList_eq], by omega⟩

end CutAt

namespace SourceMap

variable {text : String} {m n : Nat}

/-- An offset is a position in a text exactly if it is a character boundary. -/
theorem isSome_pos?_iff : (text.pos? ⟨n⟩).isSome = true ↔ String.Pos.Raw.IsValid text ⟨n⟩ := by
  simp [String.pos?, String.Slice.pos?]

/-- No offset inside a character is a boundary, so rounding down leads to its start. -/
theorem boundaryAtOrBefore_eq (h : CutAt text n cs ds) (hn : n ≤ text.utf8ByteSize) :
    boundaryAtOrBefore text n = byteLength cs := by
  induction n with
  | zero =>
    have hle := h.le
    rw [boundaryAtOrBefore]
    omega
  | succ n ih =>
    rw [boundaryAtOrBefore]
    by_cases hvalid : String.Pos.Raw.IsValid text ⟨n + 1⟩
    · obtain ⟨a, b, htext, ha⟩ := String.Pos.Raw.isValid_iff_exists_append.mp hvalid
      have hbytes : n + 1 = byteLength a.toList := by
        rw [← utf8ByteSize_ofList, String.ofList_toList]
        exact congrArg String.Pos.Raw.byteIdx ha
      have hcut : CutAt text (n + 1) a.toList b.toList := by
        refine ⟨by rw [htext, String.toList_append], Nat.le_of_eq hbytes.symm, ?_⟩
        intro c rest _
        have := c.utf8Size_pos
        omega
      rw [if_pos (isSome_pos?_iff.mpr hvalid), h.unique hcut, hbytes]
    · have hne : byteLength cs ≠ n + 1 := by
        intro heq
        apply hvalid
        refine String.Pos.Raw.isValid_iff_exists_append.mpr
          ⟨String.ofList cs, String.ofList ds, ?_, ?_⟩
        · rw [← String.ofList_append, ← h.toList_eq, String.ofList_toList]
        · rw [← heq, ← utf8ByteSize_ofList]
          rfl
      rw [if_neg (mt isSome_pos?_iff.mp hvalid)]
      have hle := h.le
      refine ih ⟨h.toList_eq, by omega, fun c rest hds => ?_⟩ (Nat.le_of_succ_le hn)
      exact Nat.lt_of_succ_lt (h.lt c rest hds)

/-- Looking an offset up is looking up the place before the character into which it falls. -/
theorem positionAt_eq_positionAt (h : CutAt text o cs ds) :
    (ofText text).positionAt o = (ofText text).positionAt (byteLength cs) := by
  have htext : text.utf8ByteSize = byteLength cs + byteLength ds := by
    rw [← byteLength_append, ← h.toList_eq, ← utf8ByteSize_ofList, String.ofList_toList]
  have hmin : CutAt text (min o text.utf8ByteSize) cs ds := by
    refine ⟨h.toList_eq, ?_, fun c rest hds => ?_⟩
    · have := h.le
      omega
    · exact Nat.lt_of_le_of_lt (Nat.min_le_left _ _) (h.lt c rest hds)
  have hcs : CutAt text (min (byteLength cs) text.utf8ByteSize) cs ds := by
    refine ⟨h.toList_eq, by omega, fun c rest _ => ?_⟩
    have := c.utf8Size_pos
    omega
  have hsame : boundaryAtOrBefore text (min o text.utf8ByteSize) =
      boundaryAtOrBefore text (min (byteLength cs) text.utf8ByteSize) := by
    rw [boundaryAtOrBefore_eq hmin (Nat.min_le_right _ _),
      boundaryAtOrBefore_eq hcs (Nat.min_le_right _ _)]
  unfold positionAt
  rw [show (ofText text).text = text from rfl, hsame]

end SourceMap

/-! ### Lines and their terminators -/

namespace Lined

variable {before after : List TextLine} {line : TextLine} {current rest : List Char}

/-- Every line but the last has a terminator. -/
theorem terminator_cases (h : Lined (before ++ line :: after) cs) :
    after = [] ∧ line.terminator = [] ∨ after ≠ [] ∧ LineEnd line.terminator := by
  induction before generalizing cs with
  | nil =>
    cases h with
    | last content hcontent => exact .inl ⟨rfl, rfl⟩
    | line _ _ rest hcontent hend hcut hrest => exact .inr ⟨hrest.ne_nil, hend⟩
  | cons first before ih =>
    rw [List.cons_append] at h
    generalize hlines : before ++ line :: after = lines at h ih
    cases h with
    | last content hcontent => simp at hlines
    | line _ _ rest hcontent hend hcut hrest => exact ih hrest

/-- No line starts inside a terminator. -/
theorem not_splitsTerminator (h : Lined (before ++ line :: after) cs) :
    ¬ SplitsTerminator (before.flatMap TextLine.chars)
      ((line :: after).flatMap TextLine.chars) := by
  induction before generalizing cs with
  | nil => exact not_splitsTerminator_nil _
  | cons first before ih =>
    rw [List.cons_append] at h
    generalize hlines : before ++ line :: after = lines at h ih
    cases h with
    | last content hcontent => simp at hlines
    | line _ _ rest hcontent hend hcut hrest =>
      rw [List.flatMap_cons]
      by_cases hnil : before.flatMap TextLine.chars = []
      · rw [hnil, List.append_nil, TextLine.chars, splitsTerminator_append_iff hend.ne_nil]
        have hflat := hrest.flatMap_chars
        rw [← hlines, List.flatMap_append, hnil, List.nil_append] at hflat
        rwa [hflat]
      · rw [splitsTerminator_append_iff hnil]
        exact ih hrest

/-- A cut of a line comes after no more than what the line says, or inside of its terminator. -/
theorem length_le_or_inside (h : Lined (before ++ line :: after) cs)
    (hline : line.chars = current ++ rest) (hrest : rest = [] → after = []) :
    current.length ≤ line.content.length ∨
      current = line.content ++ ['\r'] ∧ rest = ['\n'] := by
  rcases List.append_eq_append_iff.mp hline with ⟨more, rfl, hmore⟩ | ⟨more, hcontent, -⟩
  · rcases h.terminator_cases with ⟨-, hnone⟩ | ⟨hafter, hend⟩
    · rw [hnone] at hmore
      have hnil : more = [] := (List.append_eq_nil_iff.mp hmore.symm).1
      exact .inl (by simp [hnil])
    · have hleft : rest ≠ [] := mt hrest hafter
      cases more with
      | nil => exact .inl (by simp)
      | cons c more =>
        rw [hmore] at hend
        generalize hchars : c :: more ++ rest = chars at hend
        cases hend with
        | feed | «return» => simp [hleft] at hchars
        | pair =>
          obtain ⟨rfl, htail⟩ := List.cons.inj hchars
          rcases List.append_eq_singleton_iff.mp htail with ⟨rfl, rfl⟩ | ⟨-, hnil⟩
          · exact .inr ⟨rfl, rfl⟩
          · exact absurd hnil hleft
  · exact .inl (by simp [hcontent])

/-- A cut of a text is inside of a terminator if it comes after more than what its line says. -/
theorem splitsTerminator_iff (h : Lined (before ++ line :: after) (cs ++ ds))
    (hline : line.chars = current ++ rest) (hrest : rest = [] → after = [])
    (hcs : cs = before.flatMap TextLine.chars ++ current) :
    SplitsTerminator cs ds ↔ line.content.length < current.length := by
  have hds : ds = rest ++ after.flatMap TextLine.chars := by
    have hchars := h.flatMap_chars
    rw [List.flatMap_append, List.flatMap_cons, hline, hcs] at hchars
    simp only [List.append_assoc] at hchars
    exact (List.append_cancel_left (List.append_cancel_left hchars)).symm
  constructor
  · intro hsplits
    rcases h.length_le_or_inside hline hrest with hle | ⟨rfl, -⟩
    · by_cases hnil : current = []
      · have hstart := h.not_splitsTerminator
        rw [hcs, hds, hnil, List.append_nil] at hsplits
        rw [List.flatMap_cons, hline, hnil, List.nil_append] at hstart
        exact absurd hsplits hstart
      · have hlast : SplitsTerminator current ds := by
          rwa [hcs, splitsTerminator_append_iff hnil] at hsplits
        have hcurrent : current = line.content.take current.length := by
          have htake := congrArg (List.take current.length) hline
          rw [TextLine.chars, List.take_left, List.take_append_of_le_length hle] at htake
          exact htake.symm
        have hmem : '\r' ∈ line.content :=
          List.mem_of_mem_take (hcurrent ▸ List.mem_of_getLast? hlast.1)
        exact absurd rfl (h.unbroken line (by simp) '\r' hmem)
    · simp
  · intro hlt
    rcases h.length_le_or_inside hline hrest with hle | ⟨rfl, rfl⟩
    · omega
    · rw [hcs, hds]
      exact ⟨by simp, rfl⟩

/-- Of two cuts of a text the later one is on a later line, or further on in the same line. -/
theorem cut_order {before' after' : List TextLine} {line' : TextLine}
    {current' rest' more : List Char}
    (hlines : before ++ line :: after = before' ++ line' :: after')
    (hline' : line'.chars = current' ++ rest') (hrest' : rest' = [] → after' = [])
    (hcut : before'.flatMap TextLine.chars ++ current' =
      before.flatMap TextLine.chars ++ current ++ more) :
    before.length < before'.length ∨
      before = before' ∧ line = line' ∧ ∃ further, current' = current ++ further := by
  by_cases hlt : before.length < before'.length
  · exact .inl hlt
  have hcurrent : before' <+: before :=
    List.prefix_of_prefix_length_le ⟨_, hlines.symm⟩ (List.prefix_append _ _) (by omega)
  obtain ⟨between, rfl⟩ := hcurrent
  rw [List.append_assoc] at hlines
  have hline := List.append_cancel_left hlines
  cases between with
  | nil =>
    obtain ⟨rfl, rfl⟩ := List.cons.inj hline
    rw [List.append_nil, List.append_assoc] at hcut
    exact .inr ⟨List.append_nil _, rfl, more, List.append_cancel_left hcut⟩
  | cons first between =>
    -- The earlier cut comes after all of the line on which the later one is.
    obtain ⟨rfl, rfl⟩ := List.cons.inj hline
    rw [List.flatMap_append, List.flatMap_cons, hline', List.append_assoc,
      List.append_assoc] at hcut
    have hlength := congrArg List.length (List.append_cancel_left hcut)
    simp only [List.length_append] at hlength
    have hnil : rest' = [] := List.eq_nil_of_length_eq_zero (by omega)
    exact absurd (hrest' hnil) (by simp)

end Lined

namespace SourceMap

/-! ### Drawing errors -/

/-- Two offsets in order, as places on shown lines: the first one has a column up to the one
behind what is shown, or the next one if it is inside of the terminator. The second one is on a
later line, or further on in the same line and just as close to its end. -/
structure OrderedPlaces (m : SourceMap) (inside : Prop) (start stop : Position) (shown : String) :
    Prop where
  line?_eq : m.line? start.line = some shown
  column_pos : 0 < start.column
  column_le : start.column ≤ shown.length + 2
  inside_iff : inside ↔ start.column = shown.length + 2
  order : start.line < stop.line ∨
    start.line = stop.line ∧ start.column ≤ stop.column ∧ stop.column ≤ shown.length + 2

/-- Offsets in order have places in order, on a line that can be shown. -/
theorem exists_orderedPlaces (text : String) {o o' : Nat} (h : o ≤ o') :
    ∃ shown, OrderedPlaces (ofText text) (InsideTerminator text o) ((ofText text).positionAt o)
      ((ofText text).positionAt o') shown := by
  obtain ⟨cs, ds, hcut⟩ := CutAt.exists_split text o
  obtain ⟨cs', ds', hcut'⟩ := CutAt.exists_split text o'
  obtain ⟨more, hmore⟩ := hcut.exists_append hcut' h
  have hlined : Lined (linesFrom [] text.toList) text.toList := lined_linesFrom unbroken_nil
  generalize linesFrom [] text.toList = lines at hlined
  have hchars := hlined.flatMap_chars
  obtain ⟨before, line, after, current, rest, rfl, hline, hcs, hrest⟩ :=
    exists_cut hlined.ne_nil (hchars.trans hcut.toList_eq)
  obtain ⟨before', line', after', current', rest', hlines, hline', hcs', hrest'⟩ :=
    exists_cut hlined.ne_nil (hchars.trans hcut'.toList_eq)
  have hstart := positionAt_cut hlined hline hrest
  have hstop := positionAt_cut (hlines ▸ hlined) hline' hrest'
  rw [← hcs, ← positionAt_eq_positionAt hcut] at hstart
  rw [← hcs', ← positionAt_eq_positionAt hcut'] at hstop
  have hsplits : InsideTerminator text o ↔ line.content.length < current.length :=
    hcut.insideTerminator_iff.trans ((hcut.toList_eq ▸ hlined).splitsTerminator_iff hline hrest hcs)
  have hshown : line.text.length = line.content.length := String.length_ofList
  have hlength : current.length ≤ line.content.length + 1 := by
    rcases hlined.length_le_or_inside hline hrest with hle | ⟨rfl, -⟩
    · omega
    · simp
  rw [hstart, hstop]
  refine ⟨line.text, line?_eq hlined, Nat.succ_pos _, ?_, ?_, ?_⟩
  · dsimp only
    omega
  · rw [hsplits]
    dsimp only
    omega
  · rw [hcs, hcs'] at hmore
    rcases Lined.cut_order hlines hline' hrest' hmore with hlt | ⟨rfl, rfl, further, rfl⟩
    · exact .inl (Nat.succ_lt_succ hlt)
    · refine .inr ⟨rfl, by simp, ?_⟩
      have hlength' : (current ++ further).length ≤ line.content.length + 1 := by
        rcases (hlines ▸ hlined).length_le_or_inside hline' hrest' with hle | ⟨heq, -⟩
        · omega
        · simp [heq]
      dsimp only
      omega

namespace OrderedPlaces

variable {m : SourceMap} {inside : Prop} {start stop : Position} {shown : String} {carets : Nat}

/-- There is room for carets unless the span starts inside of a terminator and goes on below. -/
theorem caretCount?_eq_none_iff (h : OrderedPlaces m inside start stop shown) :
    caretCount? shown start stop = none ↔ inside ∧ start.line < stop.line := by
  have hle := h.column_le
  rw [h.inside_iff, caretCount?, columnsBetween?]
  rcases h.order with hlt | ⟨hline, hcolumn, -⟩
  · have hne : start.line ≠ stop.line := by omega
    simp only [if_neg hne, Option.map_eq_none_iff, ite_eq_right_iff, reduceCtorEq, imp_false]
    omega
  · simp [hline, hcolumn]

/-- Carets stay under the shown line and the column behind it, or there is a single one. -/
theorem of_caretCount? (h : OrderedPlaces m inside start stop shown)
    (hcarets : caretCount? shown start stop = some carets) :
    0 < carets ∧ (inside → carets = 1) ∧
      (¬ inside → start.column - 1 + carets ≤ shown.length + 1) := by
  have hle := h.column_le
  have hpos := h.column_pos
  rw [h.inside_iff]
  rw [caretCount?, columnsBetween?] at hcarets
  obtain ⟨width, hwidth, rfl⟩ := Option.map_eq_some_iff.mp hcarets
  obtain ⟨hcolumn, hwidth⟩ := Option.ite_none_right_eq_some.mp hwidth
  obtain rfl := Option.some.inj hwidth
  rcases h.order with hlt | ⟨hline, -, hstop⟩
  · have hne : start.line ≠ stop.line := by omega
    rw [if_neg hne] at hcolumn ⊢
    omega
  · rw [if_pos hline] at hcolumn ⊢
    omega

end OrderedPlaces

/-- As many blanks as a line's number has digits. -/
def margin (number : Nat) : String := fill (toString number).length ' '

/-- The line of blanks and carets under the line with a number. -/
def caretLine (number blanks carets : Nat) : String :=
  s!"   {margin number} | " ++ fill blanks ' ' ++ fill carets '^' ++ "\n"

/-- What is drawn above the carets: the message with its place, and the line of the place. -/
def drawnAbove (place : Position) (shown message : String) : String :=
  s!"Error: {message}\n  --> {place.toText}\n" ++
    s!"   {margin place.line} |\n" ++ s!"{place.line} | {shown}\n"

/-- What is drawn is the message with its place and its line, and carets below it. -/
theorem draw_eq {m : SourceMap} {place : Position} {shown : String}
    (h : m.line? place.line = some shown) (carets : Nat) (message : String) :
    m.draw place carets message =
      drawnAbove place shown message ++ caretLine place.line (place.column - 1) carets := by
  rw [draw, h, drawnAbove, caretLine, margin]
  simp only [String.append_assoc]
  rfl

/-- An error is drawn for every span, wherever it starts and ends, except for one that starts
between a carriage return and its line feed and goes on below the line. The carets come after as
many blanks as there are columns before the start of the span. They go no further than one column
behind the line that is shown, except for the single one of a span inside of a terminator, which
stands in the second column behind it. -/
theorem errors_drawn_under_line (text : String) (span : Span) (message : String)
    (h : span.start.offset ≤ span.stop.offset) :
    let start := (ofText text).positionAt span.start.offset
    let stop := (ofText text).positionAt span.stop.offset
    ∃ shown, (ofText text).line? start.line = some shown ∧ 0 < start.column ∧
      ((ofText text).formatError? span message = none ↔
        InsideTerminator text span.start.offset ∧ start.line < stop.line) ∧
      ∀ drawn, (ofText text).formatError? span message = some drawn →
        ∃ carets, 0 < carets ∧
          drawn = drawnAbove start shown message ++
            caretLine start.line (start.column - 1) carets ∧
          (InsideTerminator text span.start.offset →
            start.column = shown.length + 2 ∧ carets = 1) ∧
          (¬ InsideTerminator text span.start.offset →
            start.column - 1 + carets ≤ shown.length + 1) := by
  obtain ⟨shown, horder⟩ := exists_orderedPlaces text h
  have hline := horder.line?_eq
  refine ⟨shown, hline, horder.column_pos, ?_, ?_⟩
  · rw [← horder.caretCount?_eq_none_iff, formatError?, hline, Option.getD_some,
      Option.map_eq_none_iff]
  · intro drawn hdrawn
    rw [formatError?, hline, Option.getD_some] at hdrawn
    obtain ⟨carets, hcarets, rfl⟩ := Option.map_eq_some_iff.mp hdrawn
    obtain ⟨hpos, hinside, houtside⟩ := horder.of_caretCount? hcarets
    exact ⟨carets, hpos, draw_eq hline carets message,
      fun h => ⟨horder.inside_iff.mp h, hinside h⟩, houtside⟩

/-- A span that starts between the two characters of a terminator and ends after the next
character cannot be drawn. -/
theorem errors_drawn_under_line_inside_pair :
    2 ≤ 4 ∧ InsideTerminator "a\r\nb" 2 ∧
      (ofText "a\r\nb").formatError? ⟨⟨2, 0, 0⟩, ⟨4, 0, 0⟩⟩ "m" = none := by
  have hinside : InsideTerminator "a\r\nb" 2 := ⟨['a'], ['b'], rfl, rfl⟩
  have hbelow : ((ofText "a\r\nb").positionAt 2).line <
      ((ofText "a\r\nb").positionAt 4).line := by decide +kernel
  obtain ⟨shown, -, -, hnone, -⟩ :=
    errors_drawn_under_line "a\r\nb" ⟨⟨2, 0, 0⟩, ⟨4, 0, 0⟩⟩ "m" (by decide)
  exact ⟨by decide, hinside, hnone.mpr ⟨hinside, hbelow⟩⟩

end SourceMap

end JavaSyntax
