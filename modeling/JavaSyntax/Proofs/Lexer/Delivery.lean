import JavaSyntax.Proofs.Lexer.Spelling

/-!
# Tokens delivered in a row

What the lexer delivers in a row, call after call, is a relation of its own: it is
determined by the lexer it starts from, it can be cut and put together, and a run of the
lexer over a whole text starts with it.
-/

namespace JavaSyntax

/-- A lexer delivers tokens one after the other and then stands like another one. It is
not asked again after the end of the text. -/
inductive Lexer.Delivers : Lexer → List Token → Lexer → Prop
  | nil (l : Lexer) : Delivers l [] l
  | cons {l m : Lexer} {t : Token} {ts : List Token} (hresult : l.lex.result = .ok t)
      (hend : t.isEnd = true → ts = []) (htail : Delivers l.lex.lexer ts m) :
      Delivers l (t :: ts) m

namespace Lexer.Delivers

variable {l m n : Lexer} {ts us : List Token}

/-- Tokens are delivered one after the other, as long as the end is not among the first ones. -/
theorem append (hts : Delivers l ts m) (hus : Delivers m us n)
    (hend : ∀ t ∈ ts, t.isEnd = true → us = []) : Delivers l (ts ++ us) n := by
  induction hts with
  | nil => exact hus
  | @cons l m t ts hresult htend _ ih =>
    refine .cons hresult ?_ (ih hus fun t ht => hend t (List.mem_cons_of_mem _ ht))
    intro ht
    rw [htend ht, hend t List.mem_cons_self ht]
    rfl

/-- What was delivered can be cut anywhere. -/
theorem split (h : Delivers l (ts ++ us) n) : ∃ m, Delivers l ts m ∧ Delivers m us n := by
  induction ts generalizing l with
  | nil => exact ⟨l, .nil l, h⟩
  | cons t ts ih =>
    cases h with
    | cons hresult hend htail =>
      obtain ⟨m, hts, hus⟩ := ih htail
      exact ⟨m, .cons hresult (fun ht => (List.append_eq_nil_iff.mp (hend ht)).1) hts, hus⟩

/-- Only the last token can be the end of the text. -/
theorem isEnd_eq_false (h : Delivers l ts m) {t : Token} {pre post : List Token}
    (hts : ts = pre ++ t :: post) (hpost : post ≠ []) : t.isEnd = false := by
  subst hts
  obtain ⟨k, _, htail⟩ := h.split
  cases htail with
  | cons _ hend _ =>
    cases ht : t.isEnd with
    | false => rfl
    | true => exact absurd (hend ht) hpost

/-- The end of the text stands at the end. -/
theorem isEnd_getLast? (h : Delivers l ts m) {t : Token} (ht : t ∈ ts) (hend : t.isEnd = true) :
    ts.getLast?.any Token.isEnd = true := by
  obtain ⟨pre, post, rfl⟩ := List.append_of_mem ht
  cases post with
  | nil => simpa using hend
  | cons u post =>
    rw [h.isEnd_eq_false rfl (by simp)] at hend
    cases hend

/-- If the last token is not the end of the text, none is. -/
theorem isEnd_of_getLast? (h : Delivers l ts m) (hlast : ts.getLast?.any Token.isEnd = false) :
    ∀ t ∈ ts, t.isEnd = false := by
  intro t ht
  cases hend : t.isEnd with
  | false => rfl
  | true =>
    rw [h.isEnd_getLast? ht hend] at hlast
    cases hlast

end Lexer.Delivers

/-! ### Runs -/

namespace Lexer

variable {l m : Lexer} {t : Token} {ts tokens : List Token} {events : List LogEvent}

/-- A run fails where a call does. -/
theorem failure_runFrom_of_error {e : LexError} (h : l.lex.result = .error e) :
    (runFrom tokens events l).failure = some e := by
  rw [runFrom]
  split
  · rename_i e' h'
    cases h.symm.trans h'
    rfl
  · rename_i h'
    cases h.symm.trans h'

/-- A run stops at the end of the text. -/
theorem tokens_runFrom_of_end (h : l.lex.result = .ok t) (hend : t.isEnd = true) :
    (runFrom tokens events l).tokens = tokens.reverse ++ [t] := by
  rw [runFrom]
  split
  · rename_i h'
    cases h.symm.trans h'
  · rename_i t' h'
    cases h.symm.trans h'
    rw [dif_pos hend, List.reverse_cons]

/-- A run goes on behind a token. -/
theorem runFrom_of_token (h : l.lex.result = .ok t) (hend : t.isEnd = false) :
    runFrom tokens events l =
      runFrom (t :: tokens) (l.lex.events.reverse ++ events) l.lex.lexer := by
  rw [runFrom]
  split
  · rename_i h'
    cases h.symm.trans h'
  · rename_i t' h'
    cases h.symm.trans h'
    rw [dif_neg (by simp [hend])]

/-- A run keeps the tokens that it starts with. -/
theorem isPrefix_runFrom (l : Lexer) (tokens : List Token) (events : List LogEvent) :
    tokens.reverse <+: (runFrom tokens events l).tokens := by
  fun_induction runFrom tokens events l with
  | case1 => exact List.prefix_refl _
  | case2 => simp
  | case3 tokens events l outcome events' t hresult hend _ ih =>
    refine List.IsPrefix.trans ?_ ih
    simp

/-- A run starts with whatever the lexer delivers. -/
theorem Delivers.isPrefix_runFrom (h : Delivers l ts m) (tokens : List Token)
    (events : List LogEvent) : tokens.reverse ++ ts <+: (runFrom tokens events l).tokens := by
  induction h generalizing tokens events with
  | nil l =>
    rw [List.append_nil]
    exact Lexer.isPrefix_runFrom l tokens events
  | @cons l m t ts hresult hend _ ih =>
    cases ht : t.isEnd with
    | true =>
      rw [hend ht]
      exact ⟨[], by simp [tokens_runFrom_of_end hresult ht]⟩
    | false =>
      have happend : tokens.reverse ++ t :: ts = (t :: tokens).reverse ++ ts := by simp
      rw [runFrom_of_token hresult ht, happend]
      exact ih _ _

/-- A run that has delivered the end of the text is over. -/
theorem Delivers.runFrom_of_end (h : Delivers l ts m) (hlast : ts.getLast?.any Token.isEnd = true)
    (tokens : List Token) (events : List LogEvent) :
    (runFrom tokens events l).failure = none ∧
      (runFrom tokens events l).tokens = tokens.reverse ++ ts := by
  induction h generalizing tokens events with
  | nil => cases hlast
  | @cons l m t ts hresult hend _ ih =>
    cases ht : t.isEnd with
    | true =>
      refine ⟨?_, by rw [tokens_runFrom_of_end hresult ht, hend ht]⟩
      rw [runFrom]
      split
      · rename_i h'
        cases hresult.symm.trans h'
      · rename_i t' h'
        cases hresult.symm.trans h'
        rw [dif_pos ht]
    | false =>
      have hrest : ts.getLast?.any Token.isEnd = true := by
        cases ts with
        | nil => simp [ht] at hlast
        | cons u us => simpa using hlast
      have happend : tokens.reverse ++ t :: ts = (t :: tokens).reverse ++ ts := by simp
      rw [runFrom_of_token hresult ht, happend]
      exact ih hrest _ _

/-- A run to the end meets no error after what was delivered. -/
theorem Delivers.lex_ne_error (h : Delivers l ts m) (hts : ∀ t ∈ ts, t.isEnd = false)
    (hfailure : (runFrom tokens events l).failure = none) (e : LexError) :
    m.lex.result ≠ .error e := by
  induction h generalizing tokens events with
  | nil l =>
    intro herror
    rw [failure_runFrom_of_error herror] at hfailure
    cases hfailure
  | @cons l m t ts hresult hend _ ih =>
    rw [runFrom_of_token hresult (hts t List.mem_cons_self)] at hfailure
    exact ih (fun t ht => hts t (List.mem_cons_of_mem _ ht)) hfailure

/-- Once the end of the text has been delivered, no call is refused. -/
theorem lex_ne_error_of_end (h : l.lex.result = .ok t) (hend : t.isEnd = true) (e : LexError) :
    l.lex.lexer.lex.result ≠ .error e := by
  obtain ⟨m, -, hends⟩ := exists_skips_ends_lex l
  obtain ⟨hrest, hfinish⟩ := hends.eq_finish h hend
  have hrest' : l.lex.lexer.rest = [] := by
    rw [hfinish]
    exact hrest
  rw [lex_of_nil hrest']
  exact nofun

/-- A run stops at the refusal that follows what was delivered. -/
theorem Delivers.failure_runFrom (h : Delivers l ts m) {e : LexError}
    (herror : m.lex.result = .error e) : (runFrom tokens events l).failure = some e := by
  induction h generalizing tokens events with
  | nil l => exact failure_runFrom_of_error herror
  | @cons l m t ts hresult hend htail ih =>
    cases ht : t.isEnd with
    | true =>
      obtain rfl := hend ht
      cases htail
      exact absurd herror (lex_ne_error_of_end hresult ht e)
    | false =>
      rw [runFrom_of_token hresult ht]
      exact ih herror

/-- A run to the end consists of what the lexer delivers. -/
theorem exists_delivers_of_runFrom (l : Lexer) (tokens : List Token) (events : List LogEvent)
    (hfailure : (runFrom tokens events l).failure = none) :
    ∃ ts m, Delivers l ts m ∧ (runFrom tokens events l).tokens = tokens.reverse ++ ts := by
  fun_induction runFrom tokens events l with
  | case1 => cases hfailure
  | case2 tokens events l outcome events' t hresult hend =>
    exact ⟨[t], outcome.lexer, .cons hresult (fun _ => rfl) (.nil _), by simp⟩
  | case3 tokens events l outcome events' t hresult hend _ ih =>
    obtain ⟨ts, m, hdelivers, htokens⟩ := ih hfailure
    refine ⟨t :: ts, m, .cons hresult (fun h => absurd h hend) hdelivers, ?_⟩
    rw [htokens]
    simp

/-- Whatever is delivered is spelt the way its kind demands. -/
theorem Delivers.spelt (h : Delivers l ts m) : ∀ t ∈ ts, t.Spelt := by
  induction h with
  | nil =>
    intro t ht
    cases ht
  | cons hresult _ _ ih =>
    intro t ht
    rcases List.mem_cons.mp ht with rfl | ht
    · exact spelt_of_lex hresult
    · exact ih t ht

/-- Whatever is delivered has the value that its kind gives to its text. -/
theorem Delivers.decode_eq (h : Delivers l ts m) :
    ∀ t ∈ ts, Literal.decode t.kind t.source.toList = .ok t.value := by
  induction h with
  | nil =>
    intro t ht
    cases ht
  | cons hresult _ _ ih =>
    intro t ht
    rcases List.mem_cons.mp ht with rfl | ht
    · exact decode_of_lex hresult
    · exact ih t ht

end Lexer

end JavaSyntax
