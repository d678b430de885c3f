import JavaSyntax.Proofs.Lexer.Trivia

/-!
# Metrics and what they count

The lexer counts while it reads: a token when it is delivered, and what stands before it earlier
still, when it is kept for a token that has not been read yet. In the end the counts are those
that one finds in the delivered tokens. What the preferences ask for decides which counts are
kept and nothing else: neither which tokens are delivered, nor what they carry, nor where the
lexer stops.
-/

namespace JavaSyntax

namespace LexicalMetrics

/-- The greatest of some lengths, or zero if there are none. -/
def greatest (lengths : List Nat) : Nat := lengths.foldl max 0

/-- One more thing makes the greatest length greater only if its length counts. -/
theorem greatest_filter_append {α : Type} (p : α → Bool) (length : α → Nat) (xs : List α) (x : α) :
    greatest (((xs ++ [x]).filter p).map length) =
      if p x then max (greatest ((xs.filter p).map length)) (length x)
      else greatest ((xs.filter p).map length) := by
  cases h : p x <;> simp [List.filter_append, h, greatest]

/-- Whether a token has the length of a string. -/
def isText (t : Token) : Bool := t.kind == .stringLiteral || t.kind == .textBlock

/-- What one finds in tokens and in what stands between them, as far as the preferences ask
for it. -/
def recount (prefs : LexicalPreferences) (tokens : List Token) (between : List Affiliation) :
    LexicalMetrics where
  totalTokens := tokens.countP (!·.isEnd)
  keywordTokens := if prefs.collectDetailedMetrics then tokens.countP Token.isKeyword else 0
  identifierTokens :=
    if prefs.collectDetailedMetrics then tokens.countP (·.kind == .identifier) else 0
  operatorTokens := if prefs.collectDetailedMetrics then tokens.countP Token.isOperator else 0
  literalTokens := if prefs.collectDetailedMetrics then tokens.countP Token.isLiteral else 0
  affiliationCount := if prefs.countAffiliations then between.length else 0
  commentCount := between.countP (·.style.isComment)
  maxStringLength :=
    if prefs.trackLengths then greatest ((tokens.filter isText).map (·.source.utf8ByteSize)) else 0
  maxCommentLength :=
    if prefs.trackLengths then
      greatest ((between.filter (·.style.isComment)).map (·.text.utf8ByteSize))
    else 0

variable {prefs : LexicalPreferences} {tokens : List Token} {between : List Affiliation}
  {t : Token} {a : Affiliation}

/-- Of nothing nothing is counted. -/
theorem recount_nil : recount prefs [] [] = {} := by
  simp [recount, greatest]

/-- The classes of tokens that are counted separately have no kind in common, and the end of
the text is in none of them. -/
theorem classes_disjoint (t : Token) :
    t.isKeyword.toNat + (t.kind == .identifier).toNat + t.isOperator.toNat + t.isLiteral.toNat ≤
      (!t.isEnd).toNat := by
  rw [Token.isKeyword, Token.isOperator, Token.isLiteral, Token.isEnd]
  cases t.kind with
  | keyword keyword => exact Nat.le_refl 1
  | _ => decide

/-- A token is counted in the class that it belongs to, whichever is asked for first. -/
theorem countClass_eq (m : LexicalMetrics) (t : Token) :
    m.countClass t =
      { m with
        keywordTokens := m.keywordTokens + t.isKeyword.toNat
        identifierTokens := m.identifierTokens + (t.kind == .identifier).toNat
        operatorTokens := m.operatorTokens + t.isOperator.toNat
        literalTokens := m.literalTokens + t.isLiteral.toNat } := by
  have hone := Nat.le_trans (classes_disjoint t) (Bool.toNat_le _)
  unfold countClass
  generalize t.isKeyword = keyword, (t.kind == .identifier) = identifier,
    t.isOperator = operator, t.isLiteral = literal at hone
  cases keyword <;> cases identifier <;> cases operator <;> cases literal <;>
    first | rfl | simp at hone

/-- One more item counts if it passes the test. -/
theorem countP_append_singleton {α : Type} (p : α → Bool) (xs : List α) (x : α) :
    (xs ++ [x]).countP p = xs.countP p + (p x).toNat := by
  cases h : p x <;> simp [h]

/-- A token that is counted is found when the tokens are counted again. -/
theorem addToken_recount (hend : t.isEnd = false) :
    (recount prefs tokens between).addToken prefs t = recount prefs (tokens ++ [t]) between := by
  unfold addToken recount
  simp only [countP_append_singleton, greatest_filter_append, hend, countClass_eq, trackString]
  cases prefs.collectDetailedMetrics <;> cases prefs.trackLengths <;> cases ht : isText t <;>
    simp_all [isText]

/-- What stands before a token is found, too, from the moment at which it is kept. -/
theorem addAffiliation_recount :
    (recount prefs tokens between).addAffiliation prefs a =
      recount prefs tokens (between ++ [a]) := by
  unfold addAffiliation addComment recount
  simp only [countP_append_singleton, greatest_filter_append]
  cases prefs.countAffiliations <;> cases prefs.trackLengths <;>
    cases ha : a.style.isComment <;> simp

/-- The end of the text is not counted. -/
theorem recount_append_end (hend : t.isEnd = true) :
    recount prefs (tokens ++ [t]) between = recount prefs tokens between := by
  have hnone := classes_disjoint t
  rw [hend] at hnone
  have htext : isText t = false := by
    rw [isText, eq_of_beq hend]
    rfl
  simp only [recount, countP_append_singleton, greatest_filter_append, hend, htext]
  generalize t.isKeyword = keyword, (t.kind == .identifier) = identifier,
    t.isOperator = operator, t.isLiteral = literal at hnone ⊢
  cases keyword <;> cases identifier <;> cases operator <;> cases literal <;>
    first | rfl | simp at hnone

/-- No token is counted in two classes. -/
theorem sum_classes_le (prefs : LexicalPreferences) (tokens : List Token)
    (between : List Affiliation) :
    (recount prefs tokens between).keywordTokens + (recount prefs tokens between).identifierTokens +
        (recount prefs tokens between).operatorTokens +
        (recount prefs tokens between).literalTokens ≤
      (recount prefs tokens between).totalTokens := by
  have hall : tokens.countP Token.isKeyword + tokens.countP (·.kind == .identifier) +
      tokens.countP Token.isOperator + tokens.countP Token.isLiteral ≤
        tokens.countP (!·.isEnd) := by
    induction tokens with
    | nil => exact Nat.le_refl 0
    | cons t tokens ih =>
      have ht := classes_disjoint t
      have hcount (b : Bool) : b.toNat = if b = true then 1 else 0 := by cases b <;> rfl
      simp only [hcount] at ht
      simp only [List.countP_cons]
      omega
  unfold recount
  cases prefs.collectDetailedMetrics
  · exact Nat.zero_le _
  · exact hall

end LexicalMetrics

namespace Lexer

variable {l m : Lexer} {t : Token} {tokens : List Token} {style : AffiliationStyle}
  {chars rest : List Char}

/-! ### Counting while reading -/

/-- The metrics of a lexer are those of the tokens that it has delivered and of what stands
before them, and before the token that it has not read yet. -/
def Tallied (l : Lexer) (tokens : List Token) : Prop :=
  l.metrics = .recount l.preferences tokens
    (tokens.flatMap (·.affiliations) ++ l.pending.toList)

/-- At the start of a text nothing is counted. -/
theorem tallied_ofText (text : String) (prefs : LexicalPreferences) :
    (ofText text prefs).Tallied [] :=
  LexicalMetrics.recount_nil.symm

/-- Passing characters counts nothing. -/
theorem Tallied.pass (h : l.Tallied tokens) : (l.pass chars rest).Tallied tokens := h

/-- What is kept for the next token is counted at once. -/
theorem Tallied.keep (h : l.Tallied tokens) (hkeep : l.keep style chars rest = .ok m) :
    m.Tallied tokens := by
  simp only [Lexer.keep] at hkeep
  split at hkeep
  · cases hkeep
  · cases hkeep
    change LexicalMetrics.addAffiliation l.metrics l.preferences _ = _
    rw [h, LexicalMetrics.addAffiliation_recount, List.append_assoc]
    simp [Lexer.pass]

/-- What is skipped is counted as standing between tokens. -/
theorem Skips.tallied (hskips : Skips l m) (h : l.Tallied tokens) : m.Tallied tokens := by
  induction hskips with
  | refl l => exact h
  | keep _ _ hkeep _ ih => exact ih (h.keep hkeep)

/-- A token that is made of a lexeme is not the end of the text. -/
theorem isEnd_tokenOf {l : Lexer} {c : Char} {cs taken rest : List Char} {kind kind' : TokenKind}
    {value : Option LiteralValue} (hscan : Scan.start c cs = .lexeme (.token kind) taken rest)
    (hclassify : l.classify kind taken.reverse = .ok (kind', value)) :
    (l.tokenOf kind' taken.reverse value).isEnd = false := by
  have hkind := ne_endOfInput_of_classify (Scan.ne_endOfInput_of_start hscan) hclassify
  simpa [Token.isEnd, tokenOf] using hkind

/-- A call that delivers a token counts it, unless it is the end of the text. A call that
refuses to go on counts what it has kept. -/
theorem Tallied.lex (h : l.Tallied tokens) :
    (∀ t, l.lex.result = .ok t → l.lex.lexer.Tallied (tokens ++ [t])) ∧
      ∀ e, l.lex.result = .error e → l.lex.lexer.Tallied tokens := by
  obtain ⟨m, hskips, hends⟩ := exists_skips_ends_lex l
  have hm := hskips.tallied h
  generalize l.lex = outcome at hends
  cases hends with
  | finished hrest =>
    refine ⟨fun t ht => ?_, fun e he => ?_⟩
    · cases ht
      change m.metrics = _
      rw [LexicalMetrics.recount_append_end rfl, hm, List.flatMap_append]
      simp [finish]
    · cases he
  | stuck =>
    refine ⟨fun t ht => ?_, fun e he => ?_⟩
    · cases ht
    · exact hm
  | refused | tooLong =>
    refine ⟨fun t ht => ?_, fun e he => ?_⟩
    · cases ht
    · exact hm.pass
  | @delivered c cs taken rest kind kind' value hrest hscan hclassify =>
    refine ⟨fun t ht => ?_, fun e he => ?_⟩
    · cases ht
      change LexicalMetrics.addToken m.metrics m.preferences _ = _
      rw [hm, LexicalMetrics.addToken_recount (isEnd_tokenOf hscan hclassify), List.flatMap_append]
      simp [afterToken, Lexer.pass, tokenOf]
    · cases he

/-- Whatever a run comes to, its metrics are those of the tokens that it delivered and of what
it has kept. -/
theorem Tallied.runFrom {l : Lexer} {tokens : List Token} {events : List LogEvent}
    (h : l.Tallied tokens.reverse) :
    (runFrom tokens events l).lexer.Tallied (runFrom tokens events l).tokens := by
  fun_induction Lexer.runFrom tokens events l with
  | case1 tokens events l outcome events' e hresult => exact h.lex.2 e hresult
  | case2 tokens events l outcome events' t hresult hend =>
    rw [List.reverse_cons]
    exact h.lex.1 t hresult
  | case3 tokens events l outcome events' t hresult hend _ ih =>
    refine ih ?_
    rw [List.reverse_cons]
    exact h.lex.1 t hresult

/-- To keep a lexeme leaves the preferences as they are. -/
theorem preferences_keep (h : l.keep style chars rest = .ok m) : m.preferences = l.preferences := by
  simp only [Lexer.keep] at h
  split at h
  · cases h
  · cases h
    rfl

/-- To skip what stands between tokens leaves the preferences as they are. -/
theorem Skips.preferences_eq (h : Skips l m) : m.preferences = l.preferences := by
  induction h with
  | refl l => rfl
  | keep _ _ hkeep _ ih => rw [ih, preferences_keep hkeep]

/-- A call leaves the preferences as they are. -/
theorem preferences_lex (l : Lexer) : l.lex.lexer.preferences = l.preferences := by
  obtain ⟨m, hskips, hends⟩ := exists_skips_ends_lex l
  rw [← hskips.preferences_eq]
  generalize l.lex = outcome at hends
  cases hends <;> rfl

/-- The preferences stay as they are. -/
theorem preferences_runFrom {l : Lexer} {tokens : List Token} {events : List LogEvent} :
    (Lexer.runFrom tokens events l).lexer.preferences = l.preferences := by
  fun_induction Lexer.runFrom tokens events l with
  | case1 tokens events l | case2 tokens events l => exact preferences_lex l
  | case3 tokens events l outcome events' t hresult hend _ ih => rw [ih, preferences_lex]

/-- A run to the end keeps nothing back. -/
theorem pending_runFrom {l : Lexer} {tokens : List Token} {events : List LogEvent}
    (h : (runFrom tokens events l).failure = none) :
    (runFrom tokens events l).lexer.pending = #[] := by
  fun_induction Lexer.runFrom tokens events l with
  | case1 => cases h
  | case2 tokens events l outcome events' t hresult hend =>
    obtain ⟨m, -, hends⟩ := exists_skips_ends_lex l
    rw [show outcome = m.finish from (hends.eq_finish hresult hend).2]
    rfl
  | case3 tokens events l outcome events' t hresult hend _ ih => exact ih h

/-! ### Reading with other preferences -/

/-- Two lexers stand at the same place, have kept the same and have delivered equally many
tokens. Their preferences and all their other counts may differ. -/
structure SameReading (l l' : Lexer) : Prop where
  rest_eq : l'.rest = l.rest
  position_eq : l'.position = l.position
  pending_eq : l'.pending = l.pending
  totalTokens_eq : l'.metrics.totalTokens = l.metrics.totalTokens

/-- Two answers are the same but for what was counted and noted down. -/
structure SameAnswer (o o' : LexOutcome) : Prop where
  result_eq : o'.result = o.result
  reading : SameReading o.lexer o'.lexer

namespace SameReading

variable {l l' : Lexer}

/-- Two lexers at the start of one text read alike, whatever their preferences are. -/
theorem ofText (text : String) (p q : LexicalPreferences) :
    SameReading (Lexer.ofText text p) (Lexer.ofText text q) where
  rest_eq := rfl
  position_eq := rfl
  pending_eq := rfl
  totalTokens_eq := rfl

/-- Lexers that read alike give the same spans. -/
theorem spanOf_eq (h : SameReading l l') : l'.spanOf chars = l.spanOf chars := by
  rw [spanOf, spanOf, h.position_eq]

/-- Lexers that read alike still do once both have passed a lexeme. -/
theorem pass (h : SameReading l l') : SameReading (l.pass chars rest) (l'.pass chars rest) where
  rest_eq := rfl
  position_eq := by rw [Lexer.pass, Lexer.pass, h.position_eq]
  pending_eq := h.pending_eq
  totalTokens_eq := h.totalTokens_eq

/-- Lexers that read alike refuse with the same error. -/
theorem refuse (h : SameReading l l') (e : LexError) (span : Span) :
    SameAnswer (l.refuse e span) (l'.refuse e span) where
  result_eq := rfl
  reading := h

/-- Lexers that read alike come to the end in the same way. -/
theorem finish (h : SameReading l l') : SameAnswer l.finish l'.finish where
  result_eq := by simp [Lexer.finish, h.position_eq, h.pending_eq]
  reading := ⟨h.rest_eq, h.position_eq, rfl, h.totalTokens_eq⟩

/-- Which tokens are accepted does not depend on the preferences. -/
theorem classify_eq (h : SameReading l l') (kind : TokenKind) (chars : List Char) :
    l'.classify kind chars = l.classify kind chars := by
  rw [Lexer.classify_eq, Lexer.classify_eq, h.totalTokens_eq, h.position_eq]

/-- Lexers that read alike deliver the same token. -/
theorem deliver (h : SameReading l l') (kind : TokenKind) (chars rest : List Char) :
    SameAnswer (l.deliver kind chars rest) (l'.deliver kind chars rest) := by
  have hpass : SameReading (l.pass chars rest) (l'.pass chars rest) := h.pass
  unfold Lexer.deliver
  rw [h.classify_eq]
  split
  · rw [h.spanOf_eq]
    exact hpass.refuse _ _
  · rw [h.spanOf_eq, h.pending_eq]
    refine ⟨rfl, rfl, hpass.position_eq, rfl, ?_⟩
    rw [totalTokens_addToken, totalTokens_addToken, hpass.totalTokens_eq]

/-- What is kept does not depend on the lexer at all. -/
theorem isOk_keep : (l'.keep style chars rest).isOk = (l.keep style chars rest).isOk := by
  simp only [Lexer.keep]
  split <;> rfl

/-- Lexers that read alike still do once both have kept a lexeme. -/
theorem keep (h : SameReading l l') {m' : Lexer} (hkeep : l.keep style chars rest = .ok m)
    (hkeep' : l'.keep style chars rest = .ok m') : SameReading m m' := by
  obtain ⟨hrest, hposition, hpending⟩ := keep_eq_ok hkeep
  obtain ⟨hrest', hposition', hpending'⟩ := keep_eq_ok hkeep'
  refine ⟨hrest'.trans hrest.symm, ?_, ?_, ?_⟩
  · rw [hposition, hposition', h.position_eq]
  · rw [hpending, hpending', h.pending_eq, h.spanOf_eq]
  · rw [totalTokens_keep hkeep, totalTokens_keep hkeep', h.totalTokens_eq]

/-- Lexers that read alike exceed the same limit. -/
theorem keep_error (h : SameReading l l') {o o' : LexOutcome}
    (hkeep : l.keep style chars rest = .error o) (hkeep' : l'.keep style chars rest = .error o') :
    SameAnswer o o' := by
  rw [(keep_eq_error hkeep).2, (keep_eq_error hkeep').2, h.position_eq, h.spanOf_eq]
  exact h.pass.refuse _ _

/-- A call gives the same answer whatever the preferences are. -/
theorem lex (h : SameReading l l') : SameAnswer l.lex l'.lex := by
  fun_induction Lexer.lex l generalizing l' with
  | case1 l hrest =>
    rw [lex_of_nil (h.rest_eq.trans hrest)]
    exact h.finish
  | case2 l c cs hrest fault taken next hscan =>
    rw [lex_of_fault (h.rest_eq.trans hrest) hscan, h.position_eq, h.spanOf_eq]
    exact h.refuse _ _
  | case3 l c cs hrest kind taken rest hscan =>
    rw [lex_of_token (h.rest_eq.trans hrest) hscan]
    exact h.deliver _ _ _
  | case4 l c cs hrest style taken rest hscan outcome hkeep =>
    have hisOk : (l'.keep style taken.reverse rest).isOk = (l.keep style taken.reverse rest).isOk :=
      isOk_keep
    cases hkeep' : l'.keep style taken.reverse rest with
    | ok m' =>
      rw [hkeep, hkeep'] at hisOk
      cases hisOk
    | error o' =>
      rw [lex_of_keep_error (h.rest_eq.trans hrest) hscan hkeep']
      exact h.keep_error hkeep hkeep'
  | case5 l c cs hrest style taken rest hscan m hkeep _ ih =>
    have hisOk : (l'.keep style taken.reverse rest).isOk = (l.keep style taken.reverse rest).isOk :=
      isOk_keep
    cases hkeep' : l'.keep style taken.reverse rest with
    | ok m' =>
      rw [(Skips.keep (h.rest_eq.trans hrest) hscan hkeep' (.refl m')).lex_eq]
      exact ih (h.keep hkeep hkeep')
    | error o' =>
      rw [hkeep, hkeep'] at hisOk
      cases hisOk

/-- A run that comes to the end has not failed. -/
theorem failure_runFrom_of_end {l : Lexer} {t : Token} {tokens : List Token}
    {events : List LogEvent} (h : l.lex.result = .ok t) (hend : t.isEnd = true) :
    (Lexer.runFrom tokens events l).failure = none := by
  rw [Lexer.runFrom]
  split
  · rename_i h'
    cases h.symm.trans h'
  · rename_i h'
    cases h.symm.trans h'
    rw [dif_pos hend]

/-- So does a run. -/
theorem runFrom {tokens : List Token} {events events' : List LogEvent} (h : SameReading l l') :
    (runFrom tokens events' l').toExcept = (runFrom tokens events l).toExcept := by
  fun_induction Lexer.runFrom tokens events l generalizing l' events' with
  | case1 tokens events l =>
    rename_i e hresult
    rw [LexRun.toExcept, failure_runFrom_of_error (h.lex.result_eq.trans hresult)]
    rfl
  | case2 tokens events l =>
    rename_i t hresult hend
    refine LexRun.toExcept_eq_ok.mpr ?_
    have hresult' := h.lex.result_eq.trans hresult
    rw [failure_runFrom_of_end hresult' hend, tokens_runFrom_of_end hresult' hend]
    exact ⟨rfl, by simp⟩
  | case3 tokens events l =>
    rename_i t hresult hend _ ih
    have hresult' := h.lex.result_eq.trans hresult
    rw [runFrom_of_token hresult' (by simpa using hend)]
    exact ih h.lex.reading

end SameReading

end Lexer

/-- A text that is split into tokens with some preferences is split into the same tokens with any
others. Its metrics are those that one finds in its tokens and in what stands before each of them,
the end of the text included, as far as the preferences ask for it; and the counts of the four
classes of tokens add up to the number of tokens at most. -/
theorem metrics_eq_recount {text : String} {p : LexicalPreferences} {tokens : List Token}
    (h : (tokenize text p).toExcept = .ok tokens) (q : LexicalPreferences) :
    (tokenize text q).toExcept = .ok tokens ∧
      (tokenize text q).lexer.metrics =
        .recount q tokens (tokens.flatMap (·.affiliations)) ∧
      (tokenize text q).lexer.metrics.keywordTokens +
          (tokenize text q).lexer.metrics.identifierTokens +
          (tokenize text q).lexer.metrics.operatorTokens +
          (tokenize text q).lexer.metrics.literalTokens ≤
        (tokenize text q).lexer.metrics.totalTokens := by
  have hq : (tokenize text q).toExcept = .ok tokens :=
    (Lexer.SameReading.ofText text p q).runFrom.trans h
  obtain ⟨hfailure, htokens⟩ := LexRun.toExcept_eq_ok.mp hq
  have htallied : (tokenize text q).lexer.Tallied (tokenize text q).tokens :=
    (Lexer.tallied_ofText text q).runFrom
  have hpending : (tokenize text q).lexer.pending = #[] := Lexer.pending_runFrom hfailure
  have hpreferences : (tokenize text q).lexer.preferences = q := Lexer.preferences_runFrom
  have hmetrics : (tokenize text q).lexer.metrics =
      .recount q tokens (tokens.flatMap (·.affiliations)) := by
    rw [htallied, hpending, hpreferences, htokens]
    simp
  refine ⟨hq, hmetrics, ?_⟩
  rw [hmetrics]
  exact LexicalMetrics.sum_classes_le q tokens _

/-- A text with a token of each class and a comment before its end, read once with the usual
preferences and once with lengths but without white space. -/
theorem metrics_eq_recount_sample :
    ∃ tokens, (tokenize "int s = \"é\"; // e").toExcept = .ok tokens ∧
      (tokenize "int s = \"é\"; // e" ⟨true, false, true, false⟩).toExcept = .ok tokens ∧
      LexicalMetrics.recount ⟨true, false, true, false⟩ tokens
          (tokens.flatMap (·.affiliations)) = ⟨5, 1, 1, 1, 1, 0, 1, 4, 4⟩ ∧
      1 + 1 + 1 + 1 ≤ 5 := by
  have hfailure : (tokenize "int s = \"é\"; // e").failure = none := by decide +kernel
  have hmetrics : (tokenize "int s = \"é\"; // e" ⟨true, false, true, false⟩).lexer.metrics =
      ⟨5, 1, 1, 1, 1, 0, 1, 4, 4⟩ := by decide +kernel
  have hok := LexRun.toExcept_eq_ok.mpr ⟨hfailure, rfl⟩
  obtain ⟨hq, hrecount, hclasses⟩ := metrics_eq_recount hok ⟨true, false, true, false⟩
  rw [hmetrics] at hrecount hclasses
  exact ⟨_, hok, hq, hrecount.symm, hclasses⟩

end JavaSyntax
