import JavaSyntax.Proofs.Lexer.Positions
import JavaSyntax.Proofs.Lexer.Series
import JavaSyntax.Proofs.Token.Invariants

/-!
# Positions of tokens

The spans of tokens, of what stands before them and of the parts of split tokens start and
stop where a source map of the text says. This holds whatever has been done with the cursor
that holds them, and however often the lexer was called after an error.
-/

namespace JavaSyntax

/-! ### Parts of a token -/

namespace Token

variable {text : String} {t : Token} {kind : TokenKind}

/-- The place after the first `>` of a token that can be split. -/
private theorem LiesIn.secondPosition (h : t.LiesIn text) (hspelt : t.Spelt)
    (hkind : t.kind.afterGreater? = some kind) :
    ∃ rest, t.span.start.Leaves text ('>' :: ((t.greaterTail kind).source.toList ++ rest)) ∧
      t.secondPosition.Leaves text ((t.greaterTail kind).source.toList ++ rest) ∧
      t.span.stop.Leaves text rest := by
  obtain ⟨tail, -, hsource, htail⟩ := hspelt.source_eq hkind
  obtain ⟨rest, hstart, hstop⟩ := h.exists_rest
  have hall : t.source.toList ++ rest = ['>'] ++ (tail.toList ++ rest) := by
    rw [hsource, String.toList_append, List.append_assoc]
    rfl
  rw [hall] at hstart
  rw [htail]
  exact ⟨rest, hstart, hstart.advance (List.cons_ne_nil _ _) (fun h => nomatch h.1), hstop⟩

/-- The `>` that is split off lies in the text where the token starts. -/
theorem LiesIn.greaterHead (h : t.LiesIn text) (hspelt : t.Spelt)
    (hkind : t.kind.afterGreater? = some kind) : t.greaterHead.LiesIn text := by
  obtain ⟨rest, hstart, hsecond, -⟩ := h.secondPosition hspelt hkind
  exact ⟨⟨_, by simpa [Token.greaterHead] using hstart, hsecond⟩, h.affiliations⟩

/-- What remains of a token lies in the text one column further on. -/
theorem LiesIn.greaterTail (h : t.LiesIn text) (hspelt : t.Spelt)
    (hkind : t.kind.afterGreater? = some kind) : (t.greaterTail kind).LiesIn text := by
  obtain ⟨rest, -, hsecond, hstop⟩ := h.secondPosition hspelt hkind
  exact ⟨⟨rest, hsecond, hstop⟩, nofun⟩

end Token

namespace Cursor

/-! ### Cursors -/

/-- A token in its place, spelt as its kind demands. -/
structure Fits (text : String) (t : Token) : Prop where
  liesIn : t.LiesIn text
  spelt : t.Spelt

/-- A cursor over a text whose tokens are in their places, those included that it can put back
together. -/
structure InPlace (text : String) (c : Cursor) : Prop where
  lexer : c.lexer.InPlace
  text_eq : c.lexer.text = text
  buffer : ∀ t ∈ c.buffer, Fits text t
  splits : ∀ entry ∈ c.splits, Fits text entry.2

variable {text : String} {c : Cursor} {t : Token} {kind : TokenKind}

/-- Tokens fit into the text in which the lexer stands in its place. -/
def placement (text : String) : Invariant where
  lexer l := l.InPlace ∧ l.text = text
  token := Fits text
  lex := by
    rintro l ⟨hplace, rfl⟩
    exact ⟨hplace.lex.1, l.text_lex⟩
  delivered := by
    rintro l t ⟨hplace, rfl⟩ ht
    exact ⟨hplace.lex.2 t ht, Lexer.spelt_of_lex ht⟩
  parts h hkind :=
    ⟨⟨h.liesIn.greaterHead h.spelt hkind, Token.spelt_greaterHead _⟩,
      h.liesIn.greaterTail h.spelt hkind, h.spelt.greaterTail hkind⟩

/-- Tokens are in their places exactly if the invariant of places holds. -/
theorem inPlace_iff_holds : c.InPlace text ↔ (placement text).Holds c := by
  constructor
  · rintro ⟨hplace, htext, hbuffer, hsplits⟩
    exact ⟨⟨hplace, htext⟩, hbuffer, hsplits⟩
  · rintro ⟨⟨hplace, htext⟩, hbuffer, hsplits⟩
    exact ⟨hplace, htext, hbuffer, hsplits⟩

/-- The token that stands for none fits everywhere. -/
theorem fits_noToken (text : String) : Fits text noToken where
  liesIn := ⟨⟨text.toList, .start text, .start text⟩, nofun⟩
  spelt := nofun

/-- Whatever is found at an index is in its place. -/
theorem InPlace.tokenAt (h : c.InPlace text) (i : Nat) : Fits text (c.tokenAt i) := by
  unfold Cursor.tokenAt
  cases hfound : c.buffer[i]? with
  | some t => exact h.buffer t (Array.mem_of_getElem? hfound)
  | none =>
    cases hback : c.buffer.back? with
    | some t => exact h.buffer t (Array.mem_of_back? hback)
    | none => exact fits_noToken text

/-- Looking ahead keeps tokens in their places, and finds one that is. -/
theorem InPlace.peekAhead (h : c.InPlace text) (n : Nat) :
    (peekAhead n c).2.InPlace text ∧ ∀ t, (peekAhead n c).1 = .ok t → Fits text t := by
  have hpeek := inPlace_iff_holds.mpr ((inPlace_iff_holds.mp h).peekAhead n)
  refine ⟨hpeek, ?_⟩
  rw [peekAhead_apply] at hpeek ⊢
  rcases htokens : Cursor.readTokens (c.position + n + 1 - c.buffer.size) c with ⟨_ | _, c'⟩ <;>
    rw [htokens] at hpeek <;> rintro t ⟨⟩
  exact hpeek.tokenAt _

/-- Whatever was done with a cursor, its tokens are in their places. -/
theorem Handled.inPlace {preferences : LexicalPreferences} (h : Handled text preferences c) :
    c.InPlace text :=
  inPlace_iff_holds.mpr (h.holds ⟨Lexer.inPlace_ofText text preferences, rfl⟩)

end Cursor

/-! ### All positions -/

/-- However often a lexer is called, it stands where it says. -/
theorem Lexer.inPlace_after (text : String) (preferences : LexicalPreferences) (n : Nat) :
    ((ofText text preferences).after n).InPlace ∧
      ((ofText text preferences).after n).text = text := by
  induction n with
  | zero => exact ⟨inPlace_ofText text preferences, rfl⟩
  | succ n ih =>
    obtain ⟨hplace, htext⟩ := ih
    exact ⟨hplace.lex.1, (text_lex _).trans htext⟩

/-- A token whose span and the spans before it are what looking their offsets up gives. -/
structure Token.Placed (text : String) (t : Token) : Prop where
  span : t.span.Placed text
  affiliations : ∀ a ∈ t.affiliations, a.span.Placed text

/-- A token that lies in a text has the spans that looking their offsets up gives. -/
theorem Token.LiesIn.allPlaced {text : String} {t : Token} (h : t.LiesIn text) : t.Placed text :=
  ⟨h.placed, h.affiliations⟩

/-- Positions are the same however they are found. Where a text can be cut without separating
a carriage return from its line feed, looking the offset up gives the position to which a
walk over the text before it leads, and it makes no difference whether the walk looks ahead
for line feeds or remembers carriage returns. The lexer stands where such a walk leads. All
spans of tokens, of what stands before them and of the parts of tokens that are split are
those that looking their offsets up gives. -/
theorem positions_consistent (text : String) (preferences : LexicalPreferences) :
    (∀ before after, text = before ++ after →
      ¬ SplitsTerminator before.toList after.toList →
      (SourceMap.ofText text).positionAt before.utf8ByteSize = Position.start.advanceText before ∧
      Position.start.advanceText before = Position.start.walk false before.toList) ∧
    (∀ n, let lexer := (Lexer.ofText text preferences).after n
      (∃ read, text.toList = read ++ lexer.rest ∧
        lexer.position = Position.start.walk false read) ∧
      (∀ a ∈ lexer.pending.toList, a.span.Placed text) ∧
      ∀ t, lexer.lex.result = .ok t → t.Placed text) ∧
    ∀ c, Cursor.Handled text preferences c →
      (∀ t ∈ c.buffer, t.Placed text) ∧
      ∀ t kind, (Cursor.peekAhead 0 c).1 = .ok t → t.kind.afterGreater? = some kind →
        t.greaterHead.Placed text ∧ (t.greaterTail kind).Placed text := by
  have hwalk (read : List Char) :
      Position.start.walk false read = Position.start.advanceChars read :=
    Position.walk_eq_advanceChars nofun
  refine ⟨?_, ?_, ?_⟩
  · rintro before after rfl hcut
    exact ⟨SourceMap.positionAt_append before after hcut, (hwalk _).symm⟩
  · intro n lexer
    obtain ⟨hplace, htext⟩ := Lexer.inPlace_after text preferences n
    obtain ⟨read, hread, -, hposition⟩ := hplace.leaves
    rw [htext] at hread
    refine ⟨⟨read, hread, hposition.trans (hwalk read).symm⟩, ?_, ?_⟩
    · rw [← htext]
      exact hplace.pending
    · intro t ht
      rw [← htext]
      exact (hplace.lex.2 t ht).allPlaced
  · intro c hc
    refine ⟨fun t ht => (hc.inPlace.buffer t ht).liesIn.allPlaced, ?_⟩
    intro t kind ht hkind
    have hfits := (hc.inPlace.peekAhead 0).2 t ht
    exact ⟨(hfits.liesIn.greaterHead hfits.spelt hkind).allPlaced,
      (hfits.liesIn.greaterTail hfits.spelt hkind).allPlaced⟩

/-- A comment over two lines, a character of two bytes and a token that is split. -/
theorem positions_consistent_sample :
    (SourceMap.ofText "/*\r\n*/é >>= 1").positionAt 8 = ⟨8, 2, 4⟩ ∧
      (((Cursor.splitGreater (Cursor.advance (.ofText "/*\r\n*/é >>= 1")).2).2.buffer.toList.map
        fun t => t.span.start) = [⟨6, 2, 3⟩, ⟨9, 2, 5⟩, ⟨10, 2, 6⟩]) ∧
      ∀ t ∈ (Cursor.splitGreater (Cursor.advance (.ofText "/*\r\n*/é >>= 1")).2).2.buffer,
        t.Placed "/*\r\n*/é >>= 1" := by
  obtain ⟨hlookup, -, hcursor⟩ := positions_consistent "/*\r\n*/é >>= 1" {}
  refine ⟨?_, by decide +kernel, (hcursor _ (.split (.advance .start))).1⟩
  have hcut : ¬ SplitsTerminator "/*\r\n*/é".toList " >>= 1".toList := by
    rintro ⟨-, hfeed⟩
    revert hfeed
    decide +kernel
  have hposition := (hlookup "/*\r\n*/é" " >>= 1" (by decide +kernel) hcut).1
  have hsize : "/*\r\n*/é".utf8ByteSize = 8 := by decide +kernel
  rw [hsize] at hposition
  rw [hposition]
  decide +kernel

end JavaSyntax
