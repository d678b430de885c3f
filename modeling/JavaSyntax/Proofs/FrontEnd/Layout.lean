import JavaSyntax.Proofs.FrontEnd.Failures
import JavaSyntax.Proofs.Grammar.StatementEchoes
import JavaSyntax.Proofs.Token.Twins

/-!
# Layout makes no difference

Texts with the same words, whatever stands between them, are parsed to structurally equal trees
or fail in the same way at the same word. The only layout that a parse can see is the one that
makes three tokens the modifier `non-sealed`.
-/

namespace JavaSyntax

open JavaSyntax.Parser Mirror

/-! ### Two parses side by side -/

namespace Mirror

variable {M : Mirror} {α : Type} [M.Likeness α] {p : Parser α}

/-- The results of two parses are alike, or both have failed for matching reasons. -/
inductive Results (M : Mirror) {α : Type} [M.Likeness α] :
    Except SyntaxError α → Except SyntaxError α → Prop
  | ok {a b : α} (hlike : M.Like a b) : Results M (.ok a) (.ok b)
  | error {e f : SyntaxError} (hfault : M.Fault e f) : Results M (.error e) (.error f)

/-- Entries that start at matching cursors come to results that match. -/
theorem results_entry (hp : M.Echoes 0 p p) (name : String) {s t : ParserState}
    (hst : M.Facing s t) : M.Results (entry name p s).1 (entry name p t).1 := by
  rw [entry_apply, entry_apply]
  have hwholly : M.Echoes 0 p.wholly p.wholly := by
    unfold wholly
    infer_instance
  have hends := hwholly.ends (hst.pushContext name) (Nat.zero_le _)
  generalize p.wholly (s.pushContext name) = first at hends
  generalize p.wholly (t.pushContext name) = second at hends
  cases hends with
  | ok hlike => exact .ok hlike
  | error hfault => exact .error hfault

/-- From states that face each other the modes parse side by side. -/
theorem results_of_facing (mode : ParseMode) {s t : ParserState} (hst : M.Facing s t) :
    M.Results (mode.parser s).1 (mode.parser t).1 := by
  cases mode with
  | compilationUnit =>
    have hp : M.Echoes 0 grammar.compilationUnit grammar.compilationUnit := inferInstance
    exact results_entry hp _ hst
  | statement =>
    have hp : M.Echoes 0 grammar.statement grammar.statement := inferInstance
    exact results_entry hp _ hst
  | expression =>
    have hp : M.Echoes 0 grammar.expression grammar.expression := inferInstance
    exact results_entry hp _ hst
  | type =>
    have hp : M.Echoes 0 grammar.type grammar.type := inferInstance
    exact results_entry hp _ hst

/-- The modes parse texts that mirror each other side by side. -/
theorem results_of_mode {text text' : String} (mode : ParseMode)
    (lexical lexical' : LexicalPreferences) (preferences preferences' : SyntaxPreferences)
    (hsame : M.Same (.ofText text lexical) (.ofText text' lexical')) :
    M.Results (mode.parser (.ofText text lexical preferences)).1
      (mode.parser (.ofText text' lexical' preferences')).1 :=
  results_of_facing mode ⟨M.same_withJournal hsame _ _, rfl, rfl, rfl⟩

end Mirror

/-! ### Errors without their places -/

namespace SyntaxError

/-- An error without its place. -/
def bare : SyntaxError → SyntaxError
  | unexpectedToken expected found _ => .unexpectedToken expected found .nowhere
  | restrictedWord word _ => .restrictedWord word .nowhere
  | unexpectedEnd expected _ => .unexpectedEnd expected 0
  | violation rule found _ => .violation rule found .nowhere
  | tooDeep found _ => .tooDeep found .nowhere
  | lexical error => .lexical error

/-- An error without its place still quotes what it was found at. -/
theorem found_bare (e : SyntaxError) : e.bare.found = e.found := by
  cases e <;> rfl

/-- Errors of parses that see the same words differ in their places only. -/
theorem bare_eq_of_fault {x y : Tokenized} {hxy : Twins x.tokens y.tokens} {e f : SyntaxError}
    (h : (Mirror.between x y hxy).Fault e f) : f.bare = e.bare := by
  have hend {t u : Token} (hword : u.word = t.word) : u.isEnd = t.isEnd :=
    congrArg (·.kind == .endOfInput) hword
  have hsource {t u : Token} (hword : u.word = t.word) : u.source = t.source :=
    congrArg Word.text hword
  cases h with
  | unexpected expected hword =>
    rw [unexpected, unexpected, hend hword, hsource hword]
    split <;> rfl
  | restricted hword =>
    change restrictedWord _ .nowhere = restrictedWord _ .nowhere
    rw [hsource hword]
  | broken rule hword =>
    change violation rule _ .nowhere = violation rule _ .nowhere
    rw [Token.display, Token.display, hend hword, hsource hword]
  | tooDeep hword =>
    change tooDeep _ .nowhere = tooDeep _ .nowhere
    rw [Token.display, Token.display, hend hword, hsource hword]
  | lexical hrefusal => exact hrefusal.elim

/-- Faults that match are errors of the grammar, since a refusal by the lexer matches nothing. -/
theorem ofSyntax_of_fault {x y : Tokenized} {hxy : Twins x.tokens y.tokens} {e f : SyntaxError}
    (h : (Mirror.between x y hxy).Fault e f) :
    FrontEndError.ofSyntax e = .grammar e ∧ FrontEndError.ofSyntax f = .grammar f := by
  have hunexpected (expected : String) (t : Token) :
      FrontEndError.ofSyntax (.unexpected expected t) = .grammar (.unexpected expected t) := by
    rw [unexpected]
    split <;> rfl
  cases h with
  | unexpected expected => exact ⟨hunexpected _ _, hunexpected _ _⟩
  | restricted | broken | tooDeep => exact ⟨rfl, rfl⟩
  | lexical hrefusal => exact hrefusal.elim

end SyntaxError

/-! ### Texts with the same words -/

/-- Tokens of the same kinds and texts have the same values, too. -/
theorem Tokenized.words_eq {x y : Tokenized}
    (h : y.tokens.map (fun t => (t.kind, t.source)) = x.tokens.map fun t => (t.kind, t.source)) :
    y.tokens.map Token.word = x.tokens.map Token.word := by
  obtain ⟨_, hleft⟩ := x.exists_delivers
  obtain ⟨_, hright⟩ := y.exists_delivers
  have hvalues := hleft.decode_eq
  have hvalues' := hright.decode_eq
  generalize x.tokens = ts at h hvalues
  generalize y.tokens = us at h hvalues'
  induction ts generalizing us with
  | nil =>
    obtain rfl := List.map_eq_nil_iff.mp h
    rfl
  | cons t ts ih =>
    cases us with
    | nil => cases h
    | cons u us =>
      obtain ⟨hfirst, hrest⟩ := List.cons.inj h
      obtain ⟨hkind, hsource⟩ := Prod.mk.inj hfirst
      have hvalue : u.value = t.value := by
        have hu := hvalues' u List.mem_cons_self
        rw [hkind, hsource, hvalues t List.mem_cons_self] at hu
        exact (Except.ok.inj hu).symm
      have hword : u.word = t.word := by rw [Token.word, Token.word, hkind, hsource, hvalue]
      have hwords := ih (fun t ht => hvalues t (List.mem_cons_of_mem _ ht)) us hrest fun u hu =>
        hvalues' u (List.mem_cons_of_mem _ hu)
      rw [List.map_cons, List.map_cons, hword, hwords]

namespace FrontEnd

/-- A text that can be split into tokens is a tokenized one. -/
theorem exists_tokenized {text : String} {lexical : LexicalPreferences} {ts : List Token}
    (h : (tokens text lexical).evaluate = .ok ts) :
    ∃ x : Tokenized, x.text = text ∧ x.preferences = lexical ∧ x.tokens = ts := by
  obtain ⟨hfailure, htokens⟩ := LexRun.toExcept_eq_ok.mp (evaluate_tokens_eq_ok.mp h)
  exact ⟨⟨text, lexical, hfailure⟩, rfl, rfl, htokens⟩

section SameWords

variable {text text' : String} {lexical lexical' : LexicalPreferences} {ts us : List Token}

/-- The modes parse texts with the same words side by side. -/
theorem results_of_words (hts : (tokens text lexical).evaluate = .ok ts)
    (hus : (tokens text' lexical').evaluate = .ok us)
    (hsame : us.map (fun t => (t.kind, t.source)) = ts.map fun t => (t.kind, t.source))
    (hjoined : ∀ i, JoinedAt us i ↔ JoinedAt ts i) (mode : ParseMode)
    (preferences preferences' : SyntaxPreferences) :
    ∃ (x y : Tokenized) (hxy : Twins x.tokens y.tokens),
      (Mirror.between x y hxy).Results (mode.parser (.ofText text lexical preferences)).1
        (mode.parser (.ofText text' lexical' preferences')).1 := by
  obtain ⟨x, rfl, rfl, rfl⟩ := exists_tokenized hts
  obtain ⟨y, rfl, rfl, rfl⟩ := exists_tokenized hus
  have hxy : Twins x.tokens y.tokens := ⟨Tokenized.words_eq hsame, hjoined⟩
  exact ⟨x, y, hxy, results_of_mode (M := .between x y hxy) mode x.preferences y.preferences
    preferences preferences' (Cursor.beside_ofText x y)⟩

/-- A text is parsed if one with the same words is, to a structurally equal tree. -/
theorem exists_parse_of_words {mode : ParseMode} {preferences : SyntaxPreferences}
    {n : Node mode.form} (hparse : (parse text mode lexical preferences).evaluate = .ok n)
    (hts : (tokens text lexical).evaluate = .ok ts)
    (hus : (tokens text' lexical').evaluate = .ok us)
    (hsame : us.map (fun t => (t.kind, t.source)) = ts.map fun t => (t.kind, t.source))
    (hjoined : ∀ i, JoinedAt us i ↔ JoinedAt ts i) (preferences' : SyntaxPreferences) :
    ∃ m, (parse text' mode lexical' preferences').evaluate = .ok m ∧ m.bare = n.bare := by
  obtain ⟨x, y, hxy, hresults⟩ :=
    results_of_words hts hus hsame hjoined mode preferences preferences'
  rw [evaluate_parse_with] at hparse ⊢
  generalize (mode.parser (.ofText text lexical preferences)).1 = first at hresults hparse
  generalize (mode.parser (.ofText text' lexical' preferences')).1 = second at hresults
  cases hresults with
  | ok hlike =>
    cases hparse
    exact ⟨_, rfl, hlike.symm⟩
  | error => cases hparse

/-- Two texts that can be split into tokens of the same kinds and texts are parsed to
structurally equal trees, or neither can be parsed, for the same reason at the same word. All
this takes is that `non-sealed` is in one piece in the one where it is in the other. -/
theorem parse_ignores_layout {text text' : String} {lexical lexical' : LexicalPreferences}
    {ts us : List Token} (hts : (tokens text lexical).evaluate = .ok ts)
    (hus : (tokens text' lexical').evaluate = .ok us)
    (hsame : us.map (fun t => (t.kind, t.source)) = ts.map fun t => (t.kind, t.source))
    (hjoined : ∀ i, JoinedAt us i ↔ JoinedAt ts i) (mode : ParseMode)
    (preferences preferences' : SyntaxPreferences) :
    (∃ n m, (parse text mode lexical preferences).evaluate = .ok n ∧
        (parse text' mode lexical' preferences').evaluate = .ok m ∧ m.bare = n.bare) ∨
      ∃ e f, (parse text mode lexical preferences).evaluate = .error (.grammar e) ∧
        (parse text' mode lexical' preferences').evaluate = .error (.grammar f) ∧
        f.bare = e.bare ∧ f.found = e.found := by
  obtain ⟨x, y, hxy, hresults⟩ :=
    results_of_words hts hus hsame hjoined mode preferences preferences'
  rw [evaluate_parse_with, evaluate_parse_with]
  generalize (mode.parser (.ofText text lexical preferences)).1 = first at hresults
  generalize (mode.parser (.ofText text' lexical' preferences')).1 = second at hresults
  cases hresults with
  | ok hlike => exact .inl ⟨_, _, rfl, rfl, hlike.symm⟩
  | @error e f hfault =>
    have hbare := SyntaxError.bare_eq_of_fault hfault
    obtain ⟨hleft, hright⟩ := SyntaxError.ofSyntax_of_fault hfault
    refine .inr ⟨e, f, congrArg Except.error hleft, congrArg Except.error hright, hbare, ?_⟩
    rw [← f.found_bare, hbare, e.found_bare]

end SameWords

/-- A class with comments is parsed like the class without them, as long as none of them stands
inside its modifier. -/
theorem parse_ignores_comments :
    ∃ n m, (parse "non-sealed class A \x7b \x7d" .compilationUnit).evaluate = .ok n ∧
      (parse "/** A class. */ non-sealed class A\x7b/* nothing */\x7d// end"
        .compilationUnit).evaluate = .ok m ∧ m.bare = n.bare := by
  generalize hplain : "non-sealed class A \x7b \x7d" = plain
  generalize hcommented : "/** A class. */ non-sealed class A\x7b/* nothing */\x7d// end" = commented
  have htokens {text : String} (h : (tokenize text {}).failure = none) :
      (tokens text).evaluate = .ok (tokenize text {}).tokens :=
    evaluate_tokens_eq_ok.mpr (LexRun.toExcept_eq_ok.mpr ⟨h, rfl⟩)
  have hsize : (tokenize plain {}).tokens.length = 8 ∧
      (tokenize commented {}).tokens.length = 8 := by
    subst hplain hcommented
    decide +kernel
  have hfirst : ∀ i < 8, JoinedAt (tokenize commented {}).tokens i ↔
      JoinedAt (tokenize plain {}).tokens i := by
    subst hplain hcommented
    decide +kernel
  have hjoined (i : Nat) : JoinedAt (tokenize commented {}).tokens i ↔
      JoinedAt (tokenize plain {}).tokens i :=
    ⟨fun h => (hfirst i (hsize.2 ▸ h.lt_length)).mp h,
      fun h => (hfirst i (hsize.1 ▸ h.lt_length)).mpr h⟩
  have hparse : (parse plain .compilationUnit).failure? = none := by
    subst hplain
    decide +kernel
  obtain ⟨n, hn⟩ := failure?_eq_none.mp hparse
  subst hplain hcommented
  rcases parse_ignores_layout (htokens (by decide +kernel)) (htokens (by decide +kernel))
    (by decide +kernel) hjoined .compilationUnit {} {} with hok | ⟨e, f, he, -⟩
  · exact hok
  · rw [hn] at he
    cases he

end FrontEnd

end JavaSyntax
