import JavaSyntax.Proofs.FrontEnd.RoundTrip

/-!
# What a failed parse says

A parse reads the tokens of a text one after the other, and none of them is left out on the way
to the end. So it meets a refusal of the lexer exactly where splitting the whole text meets it,
and hands it over as it is.
-/

namespace JavaSyntax

open Work

namespace Parser

variable {α : Type}

/-- A refusal that an entry comes to is the one that stops the lexer on the whole text. -/
theorem failure_of_entry {p : Parser α} (hp : Production .free p) {text name : String}
    {lexical : LexicalPreferences} {preferences : SyntaxPreferences} {e : LexError}
    (h : (entry name p (.ofText text lexical preferences)).1 = .error (.lexical e)) :
    (tokenize text lexical).failure = some e := by
  rw [entry_apply] at h
  generalize hstart : (ParserState.ofText text lexical preferences).pushContext name = s at h
  have hcursor := (pushContext_eq name (.ofText text lexical preferences)).1
  rw [hstart] at hcursor
  have hs : s.cursor.Settled := by
    rw [hcursor]
    exact (Cursor.settled_ofText text lexical).withJournal _
  have hwhole : Production .free p.wholly := .bind Footing.Passive.ne_looking hp fun a => inferInstance
  have htrace := (hwhole.runs hs trivial).course.trace
  rcases hrun : p.wholly s with ⟨r, s'⟩
  rw [hrun] at h htrace
  dsimp only at h htrace
  rw [h] at htrace
  cases htrace with
  | @refused _ ts m _ hgains herror hafter =>
    have hdelivers : (Lexer.ofText text lexical).Delivers ts m := by
      have hgained := hgains.delivers
      rwa [hcursor] at hgained
    exact hdelivers.failure_runFrom herror

end Parser

namespace FrontEnd

variable {text : String} {mode : ParseMode} {lexical : LexicalPreferences}
  {preferences : SyntaxPreferences}

/-- Splitting a text comes to what the lexer comes to, with errors put among those of the front
end. -/
theorem evaluate_tokens (text : String) (lexical : LexicalPreferences) :
    (tokens text lexical).evaluate = (tokenize text lexical).toExcept.mapError .lexical := rfl

/-- A text can be split into tokens exactly if the lexer gets through it. -/
theorem evaluate_tokens_eq_ok {text : String} {lexical : LexicalPreferences} {ts : List Token} :
    (tokens text lexical).evaluate = .ok ts ↔ (tokenize text lexical).toExcept = .ok ts := by
  rw [evaluate_tokens]
  cases (tokenize text lexical).toExcept with
  | ok us =>
    constructor
    · rintro ⟨⟩
      rfl
    · rintro ⟨⟩
      rfl
  | error e => constructor <;> rintro ⟨⟩

/-- A parse comes to what the production of its mode comes to at the start of the text. -/
theorem evaluate_parse_with (text : String) (mode : ParseMode) (lexical : LexicalPreferences)
    (preferences : SyntaxPreferences) :
    (parse text mode lexical preferences).evaluate =
      (mode.parser (.ofText text lexical preferences)).1.mapError .ofSyntax := rfl

/-- Only what the lexer refuses counts as a failure of the lexer. -/
theorem ofSyntax_eq_lexical {error : SyntaxError} {e : LexError}
    (h : FrontEndError.ofSyntax error = .lexical e) : error = .lexical e := by
  cases error with
  | lexical e' =>
    cases h
    rfl
  | _ => cases h

/-- A text that can be parsed can be split into tokens, and if a parse fails because of the
lexer, splitting the text fails with the same error. -/
theorem parse_agrees_with_tokens (text : String) (mode : ParseMode)
    (lexical : LexicalPreferences) (preferences : SyntaxPreferences) :
    (∀ n, (parse text mode lexical preferences).evaluate = .ok n →
        ∃ ts, (tokens text lexical).evaluate = .ok ts) ∧
      ∀ e, (parse text mode lexical preferences).evaluate = .error (.lexical e) →
        (tokens text lexical).evaluate = .error (.lexical e) := by
  obtain ⟨name, p, hp, hparser⟩ := exists_production mode
  rw [evaluate_parse_with, evaluate_tokens, hparser]
  generalize hentry : (Parser.entry name p (.ofText text lexical preferences)).1 = result
  constructor
  · intro n h
    cases result with
    | error error => cases h
    | ok n' =>
      have hfailure := Parser.tokenize_of_entry hp hentry
      rw [LexRun.toExcept_eq_ok.mpr ⟨hfailure, rfl⟩]
      exact ⟨_, rfl⟩
  · intro e h
    cases result with
    | ok n => cases h
    | error error =>
      have herror : FrontEndError.ofSyntax error = .lexical e := Except.error.inj h
      rw [ofSyntax_eq_lexical herror] at hentry
      have hfailure := Parser.failure_of_entry hp hentry
      rw [LexRun.toExcept_eq_error.mpr hfailure]
      rfl

/-- The failure that work on nothing noted down before comes to. -/
def failure? {α : Type} (work : FrontEnd α) : Option FrontEndError :=
  match work.evaluate with
  | .ok _ => none
  | .error e => some e

/-- Work has a failure if that is what it comes to. -/
theorem failure?_eq_some {α : Type} {work : FrontEnd α} {e : FrontEndError} :
    work.failure? = some e ↔ work.evaluate = .error e := by
  unfold failure?
  cases work.evaluate <;> simp

/-- Work has no failure if it comes to a result. -/
theorem failure?_eq_none {α : Type} {work : FrontEnd α} :
    work.failure? = none ↔ ∃ a, work.evaluate = .ok a := by
  unfold failure?
  cases work.evaluate <;> simp

/-- A sum can be split into tokens. A parse of a sum with a number that is not octal stops at
the number, like the lexer. -/
theorem parse_agrees_with_tokens_at_number :
    (∃ ts, (tokens "a + b").evaluate = .ok ts) ∧
      (tokens "a + 09").evaluate = .error (.lexical ⟨.invalidNumber .octalDigit, "09", 4⟩) := by
  constructor
  · have hsum : (parse "a + b" .expression).failure? = none := by decide +kernel
    obtain ⟨n, hparse⟩ := failure?_eq_none.mp hsum
    exact (parse_agrees_with_tokens "a + b" .expression {} {}).1 n hparse
  · have hnumber : (parse "a + 09" .expression).failure? =
        some (.lexical ⟨.invalidNumber .octalDigit, "09", 4⟩) := by decide +kernel
    exact (parse_agrees_with_tokens "a + 09" .expression {} {}).2 _
      (failure?_eq_some.mp hnumber)

end FrontEnd

end JavaSyntax
