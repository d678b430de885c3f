import JavaSyntax.Proofs.Lexer.Refusal
import JavaSyntax.Proofs.Token.Passed
import JavaSyntax.Proofs.Token.Positions

/-!
# How far a cursor has come

The tokens that a cursor holds follow one another in the text, and none of them is empty but the
end. Refusals of the lexer do not change this: whatever is read after one lies further on. So a
cursor that has passed more tokens has come further in its text, by one byte for each of them at
least, and it cannot pass more tokens than the text has bytes.
-/

namespace JavaSyntax

variable {t : Token} {ts us : List Token} {o p q : Nat}

/-- A place in a text lies at its end or before it. -/
theorem Position.Leaves.offset_le {text : String} {rest : List Char} {p : Position}
    (h : p.Leaves text rest) : p.offset ≤ text.utf8ByteSize := by
  obtain ⟨read, htext, -, rfl⟩ := h
  have hsize : text.utf8ByteSize = byteLength (read ++ rest) := by
    rw [← htext, ← utf8ByteSize_ofList, String.ofList_toList]
  have hstart : Position.start.offset = 0 := rfl
  rw [hsize, byteLength_append, offset_advanceChars, hstart]
  omega

/-! ### Tokens that follow one another -/

/-- A token that stops where its source does. It is not empty unless it is the end. -/
structure Token.Solid (t : Token) : Prop where
  spelt : t.Spelt
  stop_eq : t.span.stop.offset = t.span.start.offset + t.source.utf8ByteSize
  source_ne_empty : t.isEnd = false → t.source ≠ ""

/-- Tokens that follow one another between two offsets. Nothing follows the end. -/
inductive Follows : Nat → List Token → Nat → Prop
  | nil {o p : Nat} (h : o ≤ p) : Follows o [] p
  | cons {o p : Nat} {t : Token} {ts : List Token} (hsolid : t.Solid)
      (hstart : o ≤ t.span.start.offset) (hend : t.isEnd = true → ts = [])
      (htail : Follows t.span.stop.offset ts p) : Follows o (t :: ts) p

/-- Where the last of some tokens stops, or an offset before them if there are none. -/
def lastStop (o : Nat) (ts : List Token) : Nat := ts.foldl (fun _ t => t.span.stop.offset) o

/-- The end of two runs of tokens is that of the second, from where the first one ends. -/
theorem lastStop_append : lastStop o (ts ++ us) = lastStop (lastStop o ts) us :=
  List.foldl_append

/-- Tokens end where their last one stops. -/
theorem lastStop_eq : lastStop o ts = ts.getLast?.elim o (·.span.stop.offset) := by
  induction ts generalizing o with
  | nil => rfl
  | cons t ts ih =>
    change lastStop t.span.stop.offset ts = _
    rw [ih, List.getLast?_cons]
    cases ts.getLast? <;> rfl

namespace Follows

/-- What follows on an offset ends at it or behind it. -/
theorem le (h : Follows o ts p) : o ≤ p := by
  induction h with
  | nil h => exact h
  | cons hsolid hstart _ _ ih =>
    have hstop := hsolid.stop_eq
    omega

/-- What follows an offset follows an earlier one. -/
theorem mono (h : Follows p ts q) (hle : o ≤ p) : Follows o ts q := by
  cases h with
  | nil h => exact .nil (Nat.le_trans hle h)
  | cons hsolid hstart hend htail => exact .cons hsolid (Nat.le_trans hle hstart) hend htail

/-- Tokens that follow one another go on with others, unless the end is among them. -/
theorem append (h : Follows o ts p) (h' : Follows p us q)
    (hend : ∀ t ∈ ts, t.isEnd = true → us = []) : Follows o (ts ++ us) q := by
  induction h with
  | nil hle => exact h'.mono hle
  | @cons o p t ts hsolid hstart hlast _ ih =>
    refine .cons hsolid hstart ?_ (ih h' fun u hu => hend u (List.mem_cons_of_mem t hu))
    intro ht
    rw [hlast ht, hend t List.mem_cons_self ht]
    rfl

/-- Tokens that follow one another can be cut where the last of some of them stops. -/
theorem cut (h : Follows o (ts ++ us) p) :
    Follows o ts (lastStop o ts) ∧ Follows (lastStop o ts) us p ∧
      ∀ t ∈ ts, t.isEnd = true → us = [] := by
  induction ts generalizing o with
  | nil => exact ⟨.nil (Nat.le_refl o), h, nofun⟩
  | cons t ts ih =>
    cases h with
    | cons hsolid hstart hend htail =>
      obtain ⟨hbefore, hafter, hlast⟩ := ih htail
      refine ⟨.cons hsolid hstart (fun ht => ?_) hbefore, hafter, ?_⟩
      · exact (List.append_eq_nil_iff.mp (hend ht)).1
      · intro u hu hlastu
        rcases List.mem_cons.mp hu with rfl | hu
        · exact (List.append_eq_nil_iff.mp (hend hlastu)).2
        · exact hlast u hu hlastu

/-- Only the last token can be the end. -/
theorem isEnd_dropLast (h : Follows o ts p) : ∀ t ∈ ts.dropLast, t.isEnd = false := by
  induction h with
  | nil => exact nofun
  | @cons o p t ts _ _ hend _ ih =>
    intro u hu
    cases ts with
    | nil => cases hu
    | cons v ts =>
      rcases List.mem_cons.mp hu with rfl | hu
      · cases hu : u.isEnd with
        | false => rfl
        | true => cases hend hu
      · exact ih u hu

/-- The end stands at the end. -/
theorem isEnd_getLast? (h : Follows o ts p) (ht : t ∈ ts) (hend : t.isEnd = true) :
    ts.getLast?.any Token.isEnd = true := by
  obtain ⟨pre, post, rfl⟩ := List.append_of_mem ht
  obtain ⟨-, hafter, -⟩ := h.cut
  cases hafter with
  | cons _ _ hlast _ => simp [hlast hend, hend]

/-- What follows up to an offset follows up to a later one. -/
theorem extend (h : Follows o ts p) (hle : p ≤ q) : Follows o ts q := by
  induction h with
  | nil h => exact .nil (Nat.le_trans h hle)
  | cons hsolid hstart hend _ ih => exact .cons hsolid hstart hend (ih hle)

/-- Every token that is not the end takes a byte. -/
theorem add_length_le (h : Follows o (ts ++ us) p) (hts : ∀ t ∈ ts, t.isEnd = false) :
    o + ts.length ≤ lastStop o ts := by
  induction ts generalizing o with
  | nil => exact Nat.le_refl o
  | cons t ts ih =>
    cases h with
    | cons hsolid hstart _ htail =>
      have hstop := hsolid.stop_eq
      have hsource := hsolid.source_ne_empty (hts t List.mem_cons_self)
      have hsize : t.source.utf8ByteSize ≠ 0 := by simpa using hsource
      have hle := ih htail fun u hu => hts u (List.mem_cons_of_mem t hu)
      change _ ≤ lastStop t.span.stop.offset ts
      rw [List.length_cons]
      omega

/-- The two parts of a token follow one another in its place. -/
theorem parts {kind : TokenKind} (h : Follows o (t :: ts) p)
    (hkind : t.kind.afterGreater? = some kind) :
    Follows o (t.greaterHead :: t.greaterTail kind :: ts) p := by
  cases h with
  | cons hsolid hstart _ htail =>
    obtain ⟨rest, hsymbol, hsource, hrest⟩ := hsolid.spelt.source_eq hkind
    have hstop := hsolid.stop_eq
    rw [hsource, String.utf8ByteSize_append] at hstop
    have hone : ">".utf8ByteSize = 1 := rfl
    have htailSolid : (t.greaterTail kind).Solid := by
      refine ⟨hsolid.spelt.greaterTail hkind, ?_, fun _ => ?_⟩
      · change t.span.stop.offset = t.span.start.offset + 1 + (t.greaterTail kind).source.utf8ByteSize
        rw [hrest]
        omega
      · rw [hrest]
        rintro rfl
        exact (TokenKind.leads_of_afterGreater? hkind).2 hsymbol
    have hhead : t.greaterHead.Solid :=
      ⟨Token.spelt_greaterHead t, rfl, fun _ => by
        change ">" ≠ ""
        decide +kernel⟩
    refine .cons hhead hstart nofun (.cons htailSolid (Nat.le_refl _) ?_ htail)
    intro hend
    exact absurd (eq_of_beq hend) (TokenKind.ne_endOfInput_of_afterGreater? hkind).2

/-- Splitting tokens leaves tokens that follow one another. -/
theorem splits {splits : List (Nat × Token)} {buffer : List Token}
    (hsplits : SplitsTo ts splits buffer) (h : Follows o ts p) : Follows o buffer p := by
  induction hsplits with
  | whole => exact h
  | @split splits pre post t kind hsplit hkind ih =>
    obtain ⟨hbefore, hafter, hend⟩ := ih.cut
    refine hbefore.append (hafter.parts hkind) fun u hu hlast => ?_
    cases hend u hu hlast

end Follows

/-! ### What a lexer delivers -/

namespace Lexer

variable {l m : Lexer} {e : LexError}

/-- A token that is delivered follows the place where the lexer stood before, and the lexer then
stands where the token stops. -/
theorem follows_lex (h : l.lex.result = .ok t) :
    t.Solid ∧ l.position.offset ≤ t.span.start.offset ∧
      t.span.stop.offset = l.lex.lexer.position.offset := by
  have hspelt := spelt_of_lex h
  obtain ⟨m, hskips, hends⟩ := exists_skips_ends_lex l
  have hle := hskips.offset_le
  generalize l.lex = outcome at h hends
  cases hends with
  | finished hrest =>
    cases h
    exact ⟨⟨hspelt, rfl, nofun⟩, hle, rfl⟩
  | stuck | refused | tooLong => cases h
  | @delivered c cs taken rest kind kind' value hrest hscan =>
    cases h
    refine ⟨⟨hspelt, ?_, fun _ => ?_⟩, hle, rfl⟩
    · change (m.position.advanceChars taken.reverse).offset =
        m.position.offset + (String.ofList taken.reverse).utf8ByteSize
      rw [Position.offset_advanceChars, utf8ByteSize_ofList]
    · intro hempty
      have hchars := String.ofList_eq_empty_iff.mp hempty
      exact Scan.reverse_ne_nil_of_start hscan hchars

/-- The tokens that a lexer delivers follow one another between the places where it stands. -/
theorem Delivers.follows (h : l.Delivers ts m) : Follows l.position.offset ts m.position.offset := by
  induction h with
  | nil => exact .nil (Nat.le_refl _)
  | @cons l m t ts hresult hend _ ih =>
    obtain ⟨hsolid, hstart, hstop⟩ := follows_lex hresult
    exact .cons hsolid hstart hend (hstop ▸ ih)

/-- A lexer that stands at a place in the text does so after its deliveries. -/
theorem Delivers.inPlace (h : l.Delivers ts m) (hl : l.InPlace) : m.InPlace := by
  induction h with
  | nil => exact hl
  | cons _ _ _ ih => exact ih hl.lex.1

end Lexer

/-! ### Cursors in order -/

namespace Cursor

variable {c c' : Cursor} {b : Nat} {e : Option LexError}

/-- A settled cursor whose tokens follow one another up to where its lexer stands, which is a
place in the text. -/
structure InOrder (c : Cursor) : Prop extends Settled c where
  follows : Follows 0 c.wholes c.lexer.position.offset
  lexer : c.lexer.InPlace

/-- How far into its text a cursor has come: to the end of the token that it took last. -/
def offset (c : Cursor) : Nat := c.previous.elim 0 (·.span.stop.offset)

/-- A cursor is in order at the start of a text. -/
theorem inOrder_ofText (text : String) (preferences : LexicalPreferences) :
    (ofText text preferences).InOrder where
  toSettled := settled_ofText text preferences
  follows := .nil (Nat.zero_le _)
  lexer := Lexer.inPlace_ofText text preferences

/-- What was noted down makes no difference. -/
theorem InOrder.withJournal (h : c.InOrder) (journal : Array LogEvent) :
    ({ c with journal := journal } : Cursor).InOrder :=
  ⟨h.toSettled.withJournal journal, h.follows, h.lexer⟩

/-- Whatever a stretch of moves comes to, the cursor is in order after it. -/
theorem Course.inOrder (h : Course b c e c') (hc : c.InOrder) : c'.InOrder := by
  have hgains {us : List Token} {m : Lexer} (hgains : c.Gains us m c') :
      Follows 0 c'.wholes m.position.offset ∧ m.InPlace := by
    rw [hgains.wholes_eq]
    refine ⟨hc.follows.append hgains.delivers.follows fun u hu hend => hgains.of_end ?_,
      hgains.delivers.inPlace hc.lexer⟩
    rw [hc.toWellFormed.reachedEnd_eq]
    exact hc.follows.isEnd_getLast? hu hend
  cases h.trace with
  | read htrace =>
    obtain ⟨hfollows, hplace⟩ := hgains htrace
    exact ⟨h.settled, hfollows, hplace⟩
  | refused htrace _ hafter =>
    obtain ⟨hfollows, hplace⟩ := hgains htrace
    refine ⟨h.settled, ?_, ?_⟩
    · rw [hafter]
      exact hfollows.extend (Lexer.offset_le_lex _)
    · rw [hafter]
      exact hplace.lex.1

/-- A cursor in order that goes back to where it has been is in order. -/
theorem InOrder.restore {n : Nat} (h : c.InOrder) (hn : n ≤ c.position) : (c.restore n).InOrder :=
  ((Course.refl h.toSettled hn).restore (Nat.le_refl n) hn).inOrder h

/-- A settled cursor has come to the end of the last token that it passed. -/
theorem Settled.offset_eq (h : c.Settled) : c.offset = lastStop 0 c.passed := by
  have hlast : c.previous = c.passed.getLast? := by
    rw [List.getLast?_eq_getElem?, h.length_passed, previous]
    by_cases hstart : c.position = 0
    · simp [passed, hstart]
    · rw [if_neg hstart, passed, List.getElem?_take_of_lt (by omega), Array.getElem?_toList]
  rw [offset, hlast, lastStop_eq]

namespace InOrder

/-- The tokens of a cursor in order follow one another up to where its lexer stands. -/
theorem follows_buffer (h : c.InOrder) : Follows 0 c.buffer.toList c.lexer.position.offset :=
  h.follows.splits h.splitsTo

/-- No token before the position is the end of the text. -/
theorem isEnd_eq_false (h : c.InOrder) : ∀ t ∈ c.passed, t.isEnd = false := by
  intro t ht
  rcases h.within with hlt | ⟨-, hopen⟩
  · apply h.follows_buffer.isEnd_dropLast
    rw [List.dropLast_eq_take, Array.length_toList]
    exact (List.take_subset_take_left _ (by omega)) ht
  · cases hend : t.isEnd with
    | false => rfl
    | true =>
      have hlast := h.follows_buffer.isEnd_getLast? (List.mem_of_mem_take ht) hend
      rw [reachedEnd, ← Array.getLast?_toList, hlast] at hopen
      cases hopen

/-- A cursor has passed no more tokens than its text has bytes. -/
theorem position_le (h : c.InOrder) : c.position ≤ c.text.utf8ByteSize := by
  have hfollows := h.follows_buffer
  rw [← List.take_append_drop c.position c.buffer.toList] at hfollows
  obtain ⟨-, hrest, -⟩ := hfollows.cut
  have hpassed : 0 + c.passed.length ≤ lastStop 0 c.passed :=
    hfollows.add_length_le h.isEnd_eq_false
  have hrest : lastStop 0 c.passed ≤ c.lexer.position.offset := hrest.le
  have hlexer : c.lexer.position.offset ≤ c.text.utf8ByteSize := h.lexer.leaves.offset_le
  have hlength := h.length_passed
  omega

/-- Over a course from the position on, a cursor comes further by a byte for each token that it
passes at least. -/
theorem offset_add_le (h : c.InOrder) (hcourse : Course c.position c none c') :
    c.offset + (c'.position - c.position) ≤ c'.offset := by
  have hc' := hcourse.inOrder h
  obtain ⟨ts, hts⟩ := hcourse.exists_passed h.toSettled
  have hlength := congrArg List.length hts
  rw [List.length_append, hc'.length_passed, h.length_passed] at hlength
  have hfollows := hc'.follows_buffer
  rw [← List.take_append_drop c'.position c'.buffer.toList] at hfollows
  change Follows 0 (c'.passed ++ _) _ at hfollows
  rw [hts, List.append_assoc] at hfollows
  obtain ⟨-, hafter, -⟩ := hfollows.cut
  have hle := hafter.add_length_le fun t ht =>
    hc'.isEnd_eq_false t (hts ▸ List.mem_append_right _ ht)
  rw [h.offset_eq, hc'.offset_eq, hts, lastStop_append]
  omega

end InOrder

end Cursor

end JavaSyntax
