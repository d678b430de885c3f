import JavaSyntax.Proofs.Lexer.Calls
import JavaSyntax.Proofs.Text.Lines

/-!
# Positions of lexemes

The lexer walks from the start of one lexeme to the start of the next, so its positions are
right if no lexeme ends between a carriage return and its line feed. The automaton never
stops there: it takes a line feed that follows a carriage return together with it.
-/

namespace JavaSyntax

/-! ### The automaton keeps line terminators whole -/

namespace LexState

/-- An action that does not end a lexeme after a carriage return that was just taken, if
it is the one for a line feed. -/
def staysForFeed (s : LexState) : Bool :=
  match s.next .newline with
  | .stop _ => false
  | _ => true

/-- After a carriage return a line feed is taken, too. -/
theorem staysForFeed_of_next {s s' : LexState} (h : s.next .carriageReturn = .shift s') :
    s'.staysForFeed = true := by
  cases s <;> cases h <;> rfl

/-- A carriage return at the start of a lexeme takes a line feed with it. -/
theorem staysForFeed_of_first {s : LexState} (h : first .carriageReturn = .shift s) :
    s.staysForFeed = true := by
  cases h
  rfl

/-- No lexeme ends with taking a carriage return. -/
theorem next_carriageReturn_ne_take (s : LexState) (kind : LexemeKind) :
    s.next .carriageReturn ≠ .take kind := by
  cases s <;> exact nofun

end LexState

namespace Scan

variable {s : LexState} {c : Char} {taken cs taken' rest : List Char} {kind : LexemeKind}

/-- A lexeme does not end between a carriage return and its line feed. -/
private theorem not_splitsTerminator_of_run
    (hs : taken.head? = some '\r' → s.staysForFeed = true)
    (h : run s taken cs = .lexeme kind taken' rest) :
    ¬ SplitsTerminator taken'.reverse rest := by
  unfold SplitsTerminator
  rw [List.getLast?_reverse]
  fun_induction run s taken cs with
  | case1 s taken kind' hnext =>
    cases h
    rintro ⟨-, hfeed⟩
    cases hfeed
  | case5 s taken c cs s' hnext ih =>
    refine ih ?_ h
    intro hreturn
    cases hreturn
    exact LexState.staysForFeed_of_next hnext
  | case6 s taken c cs kind' hnext =>
    cases h
    rintro ⟨hreturn, -⟩
    cases hreturn
    exact LexState.next_carriageReturn_ne_take s _ hnext
  | case7 s taken c cs kind' hnext =>
    cases h
    rintro ⟨hreturn, hfeed⟩
    cases hfeed
    -- the state was entered with a carriage return, so it waits for the line feed
    have hstays := hs hreturn
    change s.next .newline = _ at hnext
    rw [LexState.staysForFeed, hnext] at hstays
    cases hstays
  | _ => cases h

/-- No lexeme ends between a carriage return and its line feed. -/
theorem not_splitsTerminator_of_start (h : start c cs = .lexeme kind taken rest) :
    ¬ SplitsTerminator taken.reverse rest := by
  unfold start at h
  split at h
  · rename_i s hfirst
    refine not_splitsTerminator_of_run ?_ h
    intro hreturn
    cases hreturn
    exact LexState.staysForFeed_of_first hfirst
  · rename_i kind' hfirst
    cases h
    rintro ⟨hreturn, -⟩
    cases hreturn
    cases hfirst
  · cases h
  · cases h

end Scan

/-! ### Calls -/

/-- A token whose span has its source between its ends, after spans that are in their places. -/
structure Token.LiesIn (text : String) (t : Token) : Prop where
  exists_rest : ∃ rest, t.span.start.Leaves text (t.source.toList ++ rest) ∧
    t.span.stop.Leaves text rest
  affiliations : ∀ a ∈ t.affiliations, a.span.Placed text

/-- The span of a token is in its place. -/
theorem Token.LiesIn.placed {text : String} {t : Token} (h : t.LiesIn text) :
    t.span.Placed text := by
  obtain ⟨rest, hstart, hstop⟩ := h.exists_rest
  exact hstart.placed hstop

namespace Lexer

variable {l m : Lexer}

/-- A lexer that stands where it says, and what it keeps lies where it says. -/
structure InPlace (l : Lexer) : Prop where
  leaves : l.position.Leaves l.text l.rest
  pending : ∀ a ∈ l.pending.toList, a.span.Placed l.text

/-- At the start of a text a lexer is in place. -/
theorem inPlace_ofText (text : String) (preferences : LexicalPreferences) :
    (ofText text preferences).InPlace :=
  ⟨.start text, by simp [ofText]⟩

/-- After a lexeme the lexer stands at a place that separates no pair. -/
theorem InPlace.advance (h : l.InPlace) {c : Char} {cs taken rest : List Char} {kind : LexemeKind}
    (hrest : l.rest = c :: cs) (hscan : Scan.start c cs = .lexeme kind taken rest) :
    (l.position.advanceChars taken.reverse).Leaves l.text rest := by
  have hleaves := h.leaves
  rw [hrest, ← Scan.append_rest_of_start hscan] at hleaves
  exact hleaves.advance (Scan.reverse_ne_nil_of_start hscan)
    (Scan.not_splitsTerminator_of_start hscan)

/-- A lexer that keeps a lexeme stays in place. -/
theorem InPlace.keep (h : l.InPlace) {c : Char} {cs taken rest : List Char}
    {style : AffiliationStyle} (hrest : l.rest = c :: cs)
    (hscan : Scan.start c cs = .lexeme (.affiliation style) taken rest)
    (hkeep : l.keep style taken.reverse rest = .ok m) : m.InPlace := by
  obtain ⟨hm, hposition, hpending⟩ := keep_eq_ok hkeep
  have hafter := h.advance hrest hscan
  have htext := text_keep hkeep
  refine ⟨by rw [htext, hm, hposition]; exact hafter, ?_⟩
  rw [htext, hpending, Array.toList_push]
  intro a ha
  rcases List.mem_append.mp ha with ha | ha
  · exact h.pending a ha
  · rw [List.mem_singleton.mp ha]
    exact h.leaves.placed hafter

/-- A lexer that skips what stands between tokens stays in place. -/
theorem InPlace.skips (h : l.InPlace) (hskips : Skips l m) : m.InPlace := by
  induction hskips with
  | refl => exact h
  | keep hrest hscan hkeep _ ih => exact ih (h.keep hrest hscan hkeep)

/-- Whatever a call comes to, the lexer stands where it says afterwards, and a token that is
delivered lies where it says. -/
theorem InPlace.lex (h : l.InPlace) :
    l.lex.lexer.InPlace ∧ ∀ t, l.lex.result = .ok t → t.LiesIn l.text := by
  obtain ⟨m, hskips, hends⟩ := exists_skips_ends_lex l
  have hm := h.skips hskips
  rw [← hskips.text_eq]
  generalize l.lex = outcome at hends
  cases hends with
  | finished hrest =>
    have hleaves := hm.leaves
    refine ⟨⟨hleaves, by simp [finish]⟩, ?_⟩
    rintro t ⟨⟩
    refine ⟨⟨m.rest, ?_, hleaves⟩, hm.pending⟩
    change m.position.Leaves m.text ("".toList ++ m.rest)
    simpa using hleaves
  | stuck hrest hscan =>
    refine ⟨hm, ?_⟩
    intro t ht
    cases ht
  | refused hrest hscan | tooLong hrest hscan =>
    refine ⟨⟨hm.advance hrest hscan, hm.pending⟩, ?_⟩
    intro t ht
    cases ht
  | @delivered c cs taken rest kind kind' value hrest hscan hclassify =>
    have hafter := hm.advance hrest hscan
    refine ⟨⟨hafter, by simp [afterToken]⟩, ?_⟩
    rintro t ⟨⟩
    refine ⟨⟨rest, ?_, hafter⟩, hm.pending⟩
    have hleaves := hm.leaves
    rw [hrest, ← Scan.append_rest_of_start hscan] at hleaves
    change m.position.Leaves m.text ((String.ofList taken.reverse).toList ++ rest)
    rwa [String.toList_ofList]

end Lexer

end JavaSyntax
