import JavaSyntax.Proofs.Lexer.Calls
import JavaSyntax.Proofs.Lexer.Escapes

/-!
# Quotation marks

A string or a character stands between two quotation marks of its sort, and a text block between
three and three, with a line terminator after its opening line. The automaton cannot come to such
a literal in another way: it enters it with a mark and leaves it with a mark.
-/

namespace JavaSyntax

/-! ### States outside and inside -/

/-- Whether a state lies inside a string, a text block or a character. -/
def LexState.quoted : LexState → Bool
  | .stringOpen | .stringEmpty | .string | .stringEscape => true
  | .textBlockOpen | .textBlock | .textBlockQuote | .textBlockTwoQuotes | .textBlockEscape => true
  | .charOpen | .char | .charEscape => true
  | _ => false

/-- Whether a token is a string, a text block or a character. -/
def TokenKind.quoted : TokenKind → Bool
  | .stringLiteral | .textBlock | .charLiteral => true
  | _ => false

/-- Whether an action neither goes on inside a quotation nor ends one. -/
def LexAction.plain : LexAction → Bool
  | .shift s => !s.quoted
  | .stop (.token kind) | .take (.token kind) => !kind.quoted
  | _ => true

/-- Outside of quotations every step is plain. -/
theorem LexState.quoted_or_plain_next (s : LexState) (c : CharClass) :
    (s.quoted || (s.next c).plain) = true := by
  cases s <;> cases c <;> rfl

/-- From outside of quotations no step ends one. -/
theorem LexState.plain_next {s : LexState} (h : s.quoted = false) (c : CharClass) :
    (s.next c).plain = true := by
  simpa [h] using s.quoted_or_plain_next c

/-- A quotation starts with a mark. -/
theorem LexState.plain_first (c : CharClass) :
    (first c).plain = true ∨ c = .quote ∧ first c = .shift .stringOpen ∨
      c = .apostrophe ∧ first c = .shift .charOpen := by
  cases c <;> first
    | exact .inl rfl
    | exact .inr (.inl ⟨rfl, rfl⟩)
    | exact .inr (.inr ⟨rfl, rfl⟩)

/-- The part of the automaton that reads quotations: how it goes from state to state with a
character of a class. -/
inductive LexState.Goes : CharClass → LexState → LexState → Prop
  | inString {k : CharClass} {s s' : LexState} (hs : s = stringOpen ∨ s = string ∨ s = stringEscape)
      (hs' : s' = string ∨ s' = stringEscape) : Goes k s s'
  | inChar {k : CharClass} {s s' : LexState} (hs : s = charOpen ∨ s = char ∨ s = charEscape)
      (hs' : s' = char ∨ s' = charEscape) : Goes k s s'
  | secondQuote : Goes .quote stringOpen stringEmpty
  | thirdQuote : Goes .quote stringEmpty textBlockOpen
  | openingLine : Goes .space textBlockOpen textBlockOpen
  | terminator {k : CharClass} (hk : k = .newline ∨ k = .carriageReturn) :
      Goes k textBlockOpen textBlock
  | inBlock {k : CharClass} {s s' : LexState}
      (hs : s = textBlock ∨ s = textBlockEscape ∨ s = textBlockQuote ∨ s = textBlockTwoQuotes)
      (hs' : s' = textBlock ∨ s' = textBlockEscape) : Goes k s s'
  | oneQuote : Goes .quote textBlock textBlockQuote
  | twoQuotes : Goes .quote textBlockQuote textBlockTwoQuotes

/-- From inside of a quotation the automaton goes on as listed. -/
theorem LexState.goes_of_next {s s' : LexState} {k : CharClass} (hquoted : s.quoted = true)
    (h : s.next k = .shift s') : Goes k s s' := by
  cases s <;> cases hquoted <;> cases k <;> cases h <;> first
    | exact .secondQuote
    | exact .thirdQuote
    | exact .openingLine
    | exact .oneQuote
    | exact .twoQuotes
    | exact .inString (by decide) (by decide)
    | exact .inChar (by decide) (by decide)
    | exact .inBlock (by decide) (by decide)
    | exact .terminator (by decide)

/-- A quotation ends only from inside. -/
theorem LexState.quoted_of_yields {s : LexState} {k : CharClass} {kind : TokenKind}
    (h : s.next k = .before kind ∨ s.next k = .after kind) (hkind : kind.quoted = true) :
    s.quoted = true := by
  cases hquoted : s.quoted with
  | true => rfl
  | false =>
    have hplain := plain_next hquoted k
    rcases h with h | h
    · simp [h, LexAction.plain, hkind] at hplain
    · simp [h, LexAction.plain, hkind] at hplain

/-- The empty string is the only quotation that ends before the next character. -/
theorem LexState.quoted_of_stop {s : LexState} {k : CharClass} {kind : TokenKind}
    (h : s.next k = .before kind) (hkind : kind.quoted = true) :
    s = stringEmpty ∧ kind = .stringLiteral := by
  have hquoted := quoted_of_yields (.inl h) hkind
  cases s <;> cases hquoted <;> cases k <;> cases h <;> exact ⟨rfl, rfl⟩

/-- The other quotations end with a mark. -/
theorem LexState.quoted_of_take {s : LexState} {k : CharClass} {kind : TokenKind}
    (h : s.next k = .after kind) (hkind : kind.quoted = true) :
    (s = string ∧ k = .quote ∧ kind = .stringLiteral) ∨
      (s = char ∧ k = .apostrophe ∧ kind = .charLiteral) ∨
      (s = textBlockTwoQuotes ∧ k = .quote ∧ kind = .textBlock) := by
  have hquoted := quoted_of_yields (.inr h) hkind
  cases s <;> cases hquoted <;> cases k <;> cases h <;> decide

/-- The only character of a class that quotations make use of. -/
def CharClass.mark? : CharClass → Option Char
  | .quote => some '"'
  | .apostrophe => some '\''
  | .newline => some '\n'
  | .carriageReturn => some '\r'
  | _ => none

/-- A class that has a mark has no other character of use to quotations. -/
theorem CharClass.eq_of_mark? {c d : Char} (h : (ofChar c).mark? = some d) : c = d := by
  unfold ofChar at h
  split at h
  · unfold ofUnicode at h
    split at h
    · cases h
    split at h <;> cases h
  split at h
  · unfold ofAsciiLetter at h
    split at h <;> cases h
  · unfold ofAsciiSymbol at h
    split at h <;> cases h <;> rfl

/-! ### What has been read -/

/-- The marks on either side of a text block. -/
def TextBlock.marks : List Char := ['"', '"', '"']

/-- The start of a text block, up to its first line terminator at least. -/
def OpensBlock (read : List Char) : Prop :=
  ∃ opening c more, read = TextBlock.marks ++ (opening ++ c :: more) ∧
    (∀ d ∈ opening, isLineTerminator d = false) ∧ isLineTerminator c = true

/-- What opens a text block does so with anything behind it. -/
theorem OpensBlock.append {read : List Char} (h : OpensBlock read) (cs : List Char) :
    OpensBlock (read ++ cs) := by
  obtain ⟨opening, c, more, rfl, hopening, hc⟩ := h
  exact ⟨opening, c, more ++ cs, by simp, hopening, hc⟩

/-- What has been read in a state inside a quotation. -/
def LexState.Holds (read : List Char) : LexState → Prop
  | .stringOpen => read = ['"']
  | .stringEmpty => read = ['"', '"']
  | .string | .stringEscape => ∃ body, read = '"' :: body
  | .textBlockOpen =>
    ∃ opening, read = TextBlock.marks ++ opening ∧ ∀ d ∈ opening, isLineTerminator d = false
  | .textBlock | .textBlockEscape => OpensBlock read
  | .textBlockQuote => ∃ before, OpensBlock before ∧ read = before ++ ['"']
  | .textBlockTwoQuotes => ∃ before, OpensBlock before ∧ read = before ++ ['"', '"']
  | .charOpen => read = ['\'']
  | .char | .charEscape => ∃ body, read = '\'' :: body
  | _ => True

/-- What a quotation consists of. -/
def TokenKind.Encloses (text : List Char) : TokenKind → Prop
  | .stringLiteral => ∃ body, text = '"' :: body ++ ['"']
  | .charLiteral => ∃ body, text = '\'' :: body ++ ['\'']
  | .textBlock => ∃ before, OpensBlock before ∧ text = before ++ TextBlock.marks
  | _ => True

/-- Nothing is asked of a token that is no quotation. -/
theorem TokenKind.encloses_of_not_quoted {kind : TokenKind} {text : List Char}
    (h : kind.quoted = false) : kind.Encloses text := by
  cases kind <;> trivial

namespace LexState

variable {s s' : LexState} {c : Char} {read : List Char} {kind : TokenKind}

/-- Outside of quotations nothing is asked of what was read. -/
theorem holds_of_not_quoted (h : s.quoted = false) : s.Holds read := by
  cases s <;> trivial

/-- A string has begun with its mark. -/
theorem Holds.exists_string (h : s.Holds read) (hs : s = stringOpen ∨ s = string ∨ s = stringEscape) :
    ∃ body, read = '"' :: body := by
  rcases hs with rfl | rfl | rfl
  · exact ⟨[], h⟩
  · exact h
  · exact h

/-- Inside of a character its opening mark was read. -/
theorem Holds.exists_char (h : s.Holds read) (hs : s = charOpen ∨ s = char ∨ s = charEscape) :
    ∃ body, read = '\'' :: body := by
  rcases hs with rfl | rfl | rfl
  · exact ⟨[], h⟩
  · exact h
  · exact h

/-- The content of a text block has begun. -/
theorem Holds.opensBlock (h : s.Holds read)
    (hs : s = textBlock ∨ s = textBlockEscape ∨ s = textBlockQuote ∨ s = textBlockTwoQuotes) :
    OpensBlock read := by
  rcases hs with rfl | rfl | rfl | rfl
  · exact h
  · exact h
  · obtain ⟨before, hbefore, rfl⟩ := h
    exact hbefore.append _
  · obtain ⟨before, hbefore, rfl⟩ := h
    exact hbefore.append _

/-- What was read with one more character is what the next state asks for. -/
theorem Holds.shift (h : s.Holds read) (hnext : s.next (CharClass.ofChar c) = .shift s') :
    s'.Holds (read ++ [c]) := by
  cases hquoted : s.quoted with
  | false =>
    have hplain := plain_next hquoted (CharClass.ofChar c)
    rw [hnext] at hplain
    exact holds_of_not_quoted (by simpa [LexAction.plain] using hplain)
  | true =>
    have hgoes := goes_of_next hquoted hnext
    generalize hk : CharClass.ofChar c = k at hgoes
    have hmark {d : Char} (hd : k.mark? = some d) : c = d :=
      CharClass.eq_of_mark? (hk ▸ hd)
    cases hgoes with
    | inString hs hs' =>
      obtain ⟨body, rfl⟩ := h.exists_string hs
      rcases hs' with rfl | rfl
      · exact ⟨body ++ [c], rfl⟩
      · exact ⟨body ++ [c], rfl⟩
    | inChar hs hs' =>
      obtain ⟨body, rfl⟩ := h.exists_char hs
      rcases hs' with rfl | rfl
      · exact ⟨body ++ [c], rfl⟩
      · exact ⟨body ++ [c], rfl⟩
    | secondQuote =>
      obtain rfl := hmark rfl
      obtain rfl : read = ['"'] := h
      rfl
    | thirdQuote =>
      obtain rfl := hmark rfl
      obtain rfl : read = ['"', '"'] := h
      exact ⟨[], rfl, nofun⟩
    | openingLine =>
      obtain ⟨opening, rfl, hopening⟩ := h
      refine ⟨opening ++ [c], by simp, ?_⟩
      intro d hd
      rcases List.mem_append.mp hd with hd | hd
      · exact hopening d hd
      · obtain rfl := List.mem_singleton.mp hd
        -- line terminators are in classes of their own
        cases hterminator : isLineTerminator d with
        | false => rfl
        | true =>
          rcases (by simpa [isLineTerminator] using hterminator : d = '\n' ∨ d = '\r') with
            rfl | rfl
          · cases hk
          · cases hk
    | terminator hterminator =>
      obtain ⟨opening, rfl, hopening⟩ := h
      refine ⟨opening, c, [], by simp, hopening, ?_⟩
      rcases hterminator with rfl | rfl
      · obtain rfl := hmark rfl
        rfl
      · obtain rfl := hmark rfl
        rfl
    | inBlock hs hs' =>
      have hblock := (h.opensBlock hs).append [c]
      rcases hs' with rfl | rfl
      · exact hblock
      · exact hblock
    | oneQuote =>
      obtain rfl := hmark rfl
      exact ⟨read, h, rfl⟩
    | twoQuotes =>
      obtain rfl := hmark rfl
      obtain ⟨before, hbefore, rfl⟩ := h
      exact ⟨before, hbefore, by simp⟩

/-- A quotation that ends before a character is enclosed. -/
theorem Holds.stop {k : CharClass} (h : s.Holds read) (hnext : s.next k = .before kind) :
    kind.Encloses read := by
  cases hkind : kind.quoted with
  | false => exact TokenKind.encloses_of_not_quoted hkind
  | true =>
    obtain ⟨rfl, rfl⟩ := quoted_of_stop hnext hkind
    exact ⟨[], h⟩

/-- A quotation that ends with a character is enclosed. -/
theorem Holds.take (h : s.Holds read) (hnext : s.next (CharClass.ofChar c) = .after kind) :
    kind.Encloses (read ++ [c]) := by
  cases hkind : kind.quoted with
  | false => exact TokenKind.encloses_of_not_quoted hkind
  | true =>
    have hends := quoted_of_take hnext hkind
    generalize hk : CharClass.ofChar c = k at hends
    have hmark {d : Char} (hd : k.mark? = some d) : c = d :=
      CharClass.eq_of_mark? (hk ▸ hd)
    rcases hends with ⟨rfl, rfl, rfl⟩ | ⟨rfl, rfl, rfl⟩ | ⟨rfl, rfl, rfl⟩
    · obtain rfl := hmark rfl
      obtain ⟨body, rfl⟩ := h
      exact ⟨body, rfl⟩
    · obtain rfl := hmark rfl
      obtain ⟨body, rfl⟩ := h
      exact ⟨body, rfl⟩
    · obtain rfl := hmark rfl
      obtain ⟨before, hbefore, rfl⟩ := h
      exact ⟨before, hbefore, by simp [TextBlock.marks]⟩

end LexState

namespace Scan

variable {c : Char} {taken cs taken' rest : List Char} {kind : TokenKind}

/-- A lexeme that is a quotation is enclosed by its marks. -/
private theorem encloses_of_run {s : LexState} (hs : s.Holds taken.reverse)
    (h : run s taken cs = .lexeme (.token kind) taken' rest) : kind.Encloses taken'.reverse := by
  fun_induction run s taken cs with
  | case1 s taken k hnext | case7 s taken c cs k hnext =>
    cases h
    exact hs.stop hnext
  | case5 s taken c cs next hnext ih =>
    refine ih ?_ h
    rw [List.reverse_cons]
    exact hs.shift hnext
  | case6 s taken c cs k hnext =>
    cases h
    rw [List.reverse_cons]
    exact hs.take hnext
  | _ => cases h

/-- A lexeme that is a quotation stands between its marks. -/
theorem encloses_of_start (h : start c cs = .lexeme (.token kind) taken rest) :
    kind.Encloses taken.reverse := by
  unfold start at h
  rcases LexState.plain_first (CharClass.ofChar c) with hplain | ⟨hquote, hfirst⟩ | ⟨hquote, hfirst⟩
  · split at h
    · rename_i s hfirst
      rw [hfirst] at hplain
      refine encloses_of_run (LexState.holds_of_not_quoted ?_) h
      simpa [LexAction.plain] using hplain
    · rename_i kind' hfirst
      rw [hfirst] at hplain
      cases h
      exact TokenKind.encloses_of_not_quoted (by simpa [LexAction.plain] using hplain)
    · cases h
    · cases h
  · obtain rfl : c = '"' := CharClass.eq_of_mark? (by rw [hquote]; rfl)
    rw [hfirst] at h
    have hholds : LexState.stringOpen.Holds ['"'].reverse := rfl
    exact encloses_of_run hholds h
  · obtain rfl : c = '\'' := CharClass.eq_of_mark? (by rw [hquote]; rfl)
    rw [hfirst] at h
    have hholds : LexState.charOpen.Holds ['\''].reverse := rfl
    exact encloses_of_run hholds h

end Scan

end JavaSyntax
