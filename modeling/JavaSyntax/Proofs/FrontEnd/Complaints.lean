import JavaSyntax.Proofs.FrontEnd.Layout
import JavaSyntax.Proofs.Token.Mirror

/-!
# What a syntax error points at

Every text mirrors itself, so the token at which a parse fails stands in the text where its
span says. An error therefore quotes the text under its span. The one exception is nesting that
is found to be too deep at the end of the text: the end is shown as a mark of its own, which
stands nowhere in the text.
-/

namespace JavaSyntax

open JavaSyntax.Parser Mirror

/-- An error of the grammar points into a text: its offset is a place between two characters,
its span starts there, and the text under the span is what it quotes. -/
structure SyntaxError.PointsInto (text : String) (e : SyntaxError) : Prop where
  isValid : String.Pos.Raw.IsValid text ⟨e.offset⟩
  start_eq : ∀ span, e.span? = some span → span.start.offset = e.offset
  quotes : ∀ span, e.span? = some span → span.slice text = e.found ∨
    e = .tooDeep "<EOF>" span ∧ e.offset = text.utf8ByteSize ∧ span.slice text = ""
  found_ne_empty : ∀ expected found span, e = .unexpectedToken expected found span → found ≠ ""
  at_end : ∀ expected offset, e = .unexpectedEnd expected offset → offset = text.utf8ByteSize

namespace SyntaxError

variable {text : String} {t : Token}

/-- An unexpected token is quoted as it stands in the text, or as nothing at its end. -/
theorem pointsInto_unexpected (h : t.StandsIn text) (expected : String) :
    (unexpected expected t).PointsInto text := by
  rw [unexpected]
  cases hend : t.isEnd with
  | true =>
    refine ⟨h.isValid, by rintro _ ⟨⟩, by rintro _ ⟨⟩, by rintro _ _ _ ⟨⟩, ?_⟩
    rintro _ _ ⟨⟩
    exact h.offset_of_isEnd hend
  | false =>
    refine ⟨h.isValid, ?_, ?_, ?_, by rintro _ _ ⟨⟩⟩
    · rintro _ ⟨⟩
      rfl
    · rintro _ ⟨⟩
      exact .inl h.slice_eq
    · rintro _ _ _ ⟨⟩
      exact h.source_ne_empty hend

/-- A restricted name is quoted as it stands in the text. -/
theorem pointsInto_restricted (h : t.StandsIn text) : (restricted t).PointsInto text := by
  refine ⟨h.isValid, ?_, ?_, nofun, nofun⟩
  · rintro _ ⟨⟩
    rfl
  · rintro _ ⟨⟩
    exact .inl h.slice_eq

/-- A rule that is broken is complained about at a token of the text. At the end of the text it
would not be, for there the mark of the end is quoted. -/
theorem pointsInto_broken (h : t.StandsIn text) (rule : GrammarRule) (hend : t.isEnd = false) :
    (broken rule t).PointsInto text := by
  have hdisplay : t.display = t.source := by simp [Token.display, hend]
  refine ⟨h.isValid, ?_, ?_, by rintro _ _ _ ⟨⟩, by rintro _ _ ⟨⟩⟩
  · rintro _ ⟨⟩
    rfl
  · rintro _ ⟨⟩
    exact .inl (h.slice_eq.trans hdisplay.symm)

/-- The end of the text is shown as a mark that is not in the text. -/
theorem pointsInto_tooDeep (h : t.StandsIn text) :
    (tooDeep t.display t.span).PointsInto text := by
  refine ⟨h.isValid, ?_, ?_, nofun, nofun⟩
  · rintro _ ⟨⟩
    rfl
  · rintro _ ⟨⟩
    cases hend : t.isEnd with
    | false =>
      have hdisplay : t.display = t.source := by simp [Token.display, hend]
      exact .inl (h.slice_eq.trans hdisplay.symm)
    | true =>
      have hdisplay : t.display = "<EOF>" := by simp [Token.display, hend]
      rw [hdisplay]
      exact .inr ⟨rfl, h.offset_of_isEnd hend, h.slice_eq.trans (h.source_of_isEnd hend)⟩

/-- An error at a token that stands in the text points into it, unless the lexer raised it. -/
theorem pointsInto_of_fault {preferences : LexicalPreferences} {e f : SyntaxError}
    (h : (Mirror.itself text preferences).Fault e f) :
    e.PointsInto text ∨ ∃ error, e = .lexical error := by
  cases h with
  | unexpected expected hmatch => exact .inl (pointsInto_unexpected hmatch.2 expected)
  | restricted hmatch => exact .inl (pointsInto_restricted hmatch.2)
  | broken rule hmatch hopen => exact .inl (pointsInto_broken hmatch.2 rule hopen)
  | tooDeep hmatch => exact .inl (pointsInto_tooDeep hmatch.2)
  | lexical => exact .inr ⟨_, rfl⟩

end SyntaxError

namespace FrontEnd

/-- What counts as a failure of the grammar is the error of the parser itself. -/
theorem ofSyntax_eq_grammar {error e : SyntaxError}
    (h : FrontEndError.ofSyntax error = .grammar e) :
    error = e ∧ ∀ refusal, error ≠ .lexical refusal := by
  cases error with
  | lexical => cases h
  | _ =>
    cases h
    exact ⟨rfl, nofun⟩

/-- A syntax error of a parse points into the text. Its offset lies between two characters, its
span starts there and covers what the error quotes, unless productions are nested too deep at
the very end of the text; an unexpected token is never empty, and an unexpected end is the end
of the text. -/
theorem parse_error_points_into {text : String} {mode : ParseMode} {lexical : LexicalPreferences}
    {preferences : SyntaxPreferences} {e : SyntaxError}
    (h : (parse text mode lexical preferences).evaluate = .error (.grammar e)) :
    e.PointsInto text := by
  have hresults := results_of_mode (M := .itself text lexical) mode lexical lexical preferences
    preferences (Cursor.abreast_ofText text lexical)
  rw [evaluate_parse_with] at h
  generalize (mode.parser (.ofText text lexical preferences)).1 = result at h hresults
  cases hresults with
  | ok => cases h
  | @error error _ hfault =>
    obtain ⟨rfl, hgrammar⟩ := ofSyntax_eq_grammar (Except.error.inj h)
    rcases SyntaxError.pointsInto_of_fault hfault with hpoints | ⟨refusal, hlexical⟩
    · exact hpoints
    · exact absurd hlexical (hgrammar refusal)

/-- A semicolon is quoted where an operand is missing. Where an operand is missing behind too
many operators, the mark of the end is quoted, and nothing stands under the span. -/
theorem parse_error_points_into_operands :
    (SyntaxError.unexpectedToken "expression" ";" ⟨⟨3, 1, 4⟩, ⟨4, 1, 5⟩⟩).PointsInto "a +;" ∧
      (SyntaxError.tooDeep "<EOF>" (.point ⟨64, 1, 65⟩)).PointsInto
        (String.ofList (List.replicate 64 '!')) := by
  have hsemicolon : (parse "a +;" .expression).failure? =
      some (.grammar (.unexpectedToken "expression" ";" ⟨⟨3, 1, 4⟩, ⟨4, 1, 5⟩⟩)) := by
    decide +kernel
  have hend : (parse (String.ofList (List.replicate 64 '!')) .expression).failure? =
      some (.grammar (.tooDeep "<EOF>" (.point ⟨64, 1, 65⟩))) := by decide +kernel
  exact ⟨parse_error_points_into (failure?_eq_some.mp hsemicolon),
    parse_error_points_into (failure?_eq_some.mp hend)⟩

end FrontEnd

end JavaSyntax
