import JavaSyntax.Proofs.Lexer.Pieces

/-!
# White space and comments between tokens

What stands between two tokens only parts them. A lexeme that is a token ends before white
space wherever it ends before anything else, and what consists of white space and whole
comments is kept for the next token, however the lexer cuts it. So the tokens of a text with
other white space and comments between them are read again as the same words.
-/

namespace JavaSyntax

/-! ### Lexemes before white space -/

namespace CharClass

/-- Whether a character is white space, in which no token goes on unless it is a literal. -/
def isBlank : CharClass → Bool
  | .space | .newline | .carriageReturn => true
  | _ => false

/-- Line ends and the characters that comments are delimited by have classes of their own. -/
theorem eq_of_ofChar_eq {c d : Char} (hd : d ∈ ['\n', '\r', '/', '*'])
    (h : ofChar c = ofChar d) : c = d := by
  have hclass : ofChar c = .newline ∧ d = '\n' ∨ ofChar c = .carriageReturn ∧ d = '\r' ∨
      ofChar c = .slash ∧ d = '/' ∨ ofChar c = .star ∧ d = '*' := by
    simp only [List.mem_cons, List.not_mem_nil, or_false] at hd
    rcases hd with rfl | rfl | rfl | rfl
    · exact .inl ⟨h, rfl⟩
    · exact .inr (.inl ⟨h, rfl⟩)
    · exact .inr (.inr (.inl ⟨h, rfl⟩))
    · exact .inr (.inr (.inr ⟨h, rfl⟩))
  unfold ofChar at hclass
  split at hclass
  · unfold ofUnicode at hclass
    split at hclass
    · simp at hclass
    · split at hclass <;> simp at hclass
  · split at hclass
    · unfold ofAsciiLetter at hclass
      split at hclass <;> simp at hclass
    · unfold ofAsciiSymbol at hclass
      split at hclass <;> simp_all

/-- No character has the class of the end of the text. -/
theorem ofChar_ne_endOfText (c : Char) : ofChar c ≠ .endOfText := by
  unfold ofChar
  split
  · unfold ofUnicode
    split
    · exact nofun
    · split <;> exact nofun
  · split
    · unfold ofAsciiLetter
      split <;> exact nofun
    · unfold ofAsciiSymbol
      split <;> exact nofun

end CharClass

namespace LexState

variable {s : LexState} {c d : CharClass} {kind : TokenKind}

/-- A token that ends before some character ends before a space, too. -/
theorem next_space (h : s.next c = .before kind) : s.next .space = .before kind := by
  cases s <;> cases c <;> first | exact h | cases h

/-- A token that ends before any character ends before white space. -/
theorem next_of_isBlank (h : s.next c = .before kind) (hd : d.isBlank = true) :
    s.next d = .before kind := by
  have hspace := next_space h
  cases d <;> first | cases hd; done | skip
  · exact hspace
  all_goals cases s <;> first | exact hspace | cases hspace

end LexState

namespace Scan

variable {s : LexState} {c : Char} {cs taken taken' rest : List Char} {kind : TokenKind}
  {next : CharClass}

/-- What was read as a token is a token before white space. -/
theorem kindFrom_of_run (h : run s taken cs = .lexeme (.token kind) taken' rest)
    (hnext : next.isBlank = true) :
    ∃ more, taken'.reverse = taken.reverse ++ more ∧
      kindFrom s more next = some (.token kind) := by
  fun_induction run s taken cs with
  | case1 s taken kind' haction | case7 s taken c cs kind' haction =>
    cases h
    refine ⟨[], by simp, ?_⟩
    rw [kindFrom, LexState.next_of_isBlank haction hnext]
  | case5 s taken c cs s' haction ih =>
    obtain ⟨more, htaken, hkind⟩ := ih h
    refine ⟨c :: more, by simpa using htaken, ?_⟩
    rw [kindFrom, haction]
    exact hkind
  | case6 s taken c cs kind' haction =>
    cases h
    refine ⟨[c], by simp, ?_⟩
    rw [kindFrom, haction]
    rfl
  | case2 | case3 | case4 | case8 => cases h

/-- A lexeme that was read would have been read before white space as well. -/
theorem kindOf_of_start (h : start c cs = .lexeme (.token kind) taken rest)
    (hnext : next.isBlank = true) : kindOf taken.reverse next = some (.token kind) := by
  unfold start at h
  split at h
  · rename_i s hfirst
    obtain ⟨more, htaken, hkind⟩ := kindFrom_of_run h hnext
    rw [htaken, List.reverse_singleton, List.singleton_append, kindOf, hfirst]
    exact hkind
  · rename_i kind' hfirst
    cases h
    rw [List.reverse_singleton, kindOf, hfirst]
    rfl
  · cases h
  · cases h

/-- White space never becomes a token. -/
theorem kindFrom_space_ne (cs : List Char) (next : CharClass) (kind : TokenKind) :
    kindFrom .space cs next ≠ some (.token kind) := by
  induction cs with
  | nil => cases next <;> rintro ⟨⟩
  | cons c cs ih =>
    rw [kindFrom]
    generalize CharClass.ofChar c = d
    cases d <;> first | exact ih | rintro ⟨⟩

/-- A line terminator never becomes a token. -/
theorem kindFrom_carriageReturn_ne (cs : List Char) (next : CharClass) (kind : TokenKind) :
    kindFrom .carriageReturn cs next ≠ some (.token kind) := by
  cases cs with
  | nil => cases next <;> rintro ⟨⟩
  | cons c cs =>
    rw [kindFrom]
    generalize CharClass.ofChar c = d
    cases d <;> cases cs <;> rintro ⟨⟩

/-- A token does not start with white space. -/
theorem isBlank_of_kindOf (h : kindOf (c :: cs) next = some (.token kind)) :
    (CharClass.ofChar c).isBlank = false := by
  rw [kindOf] at h
  generalize CharClass.ofChar c = d at h
  cases d with
  | space => exact absurd h (kindFrom_space_ne cs next kind)
  | newline => cases cs <;> cases h
  | carriageReturn => exact absurd h (kindFrom_carriageReturn_ne cs next kind)
  | _ => rfl

end Scan

/-! ### White space and comments -/

/-- White space and whole comments, one after the other. A line comment goes to the end of its
line, a block comment to the first place where it can end, and none is longer than a comment
may be. A carriage return and a line feed after it count as two line ends here. -/
inductive Trivia : List Char → Prop
  | nil : Trivia []
  | blank {c : Char} {cs : List Char} (hc : c ∈ [' ', '\t', '\x0c']) (h : Trivia cs) :
      Trivia (c :: cs)
  | lineEnd {c : Char} {cs : List Char} (hc : c ∈ ['\n', '\r']) (h : Trivia cs) :
      Trivia (c :: cs)
  | lineComment {body cs : List Char} {c : Char} (hbody : ∀ d ∈ body, d ∉ ['\n', '\r'])
      (hshort : byteLength ('/' :: '/' :: body) ≤ Limits.maxCommentLength)
      (hc : c ∈ ['\n', '\r']) (h : Trivia cs) : Trivia ('/' :: '/' :: body ++ c :: cs)
  | blockComment {body cs : List Char} (hbody : ¬ ['*', '/'] <:+: body ++ ['*'])
      (hshort : byteLength ('/' :: '*' :: body ++ ['*', '/']) ≤ Limits.maxCommentLength)
      (h : Trivia cs) : Trivia ('/' :: '*' :: body ++ ['*', '/'] ++ cs)

namespace Trivia

variable {c : Char} {cs rest : List Char}

/-- These characters are of the class of spaces. -/
theorem ofChar_of_blank (hc : c ∈ [' ', '\t', '\x0c']) : CharClass.ofChar c = .space := by
  simp only [List.mem_cons, List.not_mem_nil, or_false] at hc
  rcases hc with rfl | rfl | rfl <;> rfl

/-- These characters are of the classes of line terminators. -/
theorem ofChar_of_lineEnd (hc : c ∈ ['\n', '\r']) :
    CharClass.ofChar c = .newline ∨ CharClass.ofChar c = .carriageReturn := by
  simp only [List.mem_cons, List.not_mem_nil, or_false] at hc
  rcases hc with rfl | rfl
  · exact .inl rfl
  · exact .inr rfl

/-- A line end after a line end starts the trivia that remain. -/
theorem of_newline (h : Trivia ('\n' :: cs)) : Trivia cs := by
  cases h with
  | blank hc h => exact h
  | lineEnd hc h => exact h

/-- A run of blanks ends before anything else. -/
theorem run_space_stop (taken : List Char) (hc : CharClass.ofChar c ≠ .space) :
    Scan.run .space taken (c :: cs) = .lexeme (.affiliation .space) taken (c :: cs) := by
  rw [Scan.run]
  generalize CharClass.ofChar c = d at hc
  cases d <;> first | rfl | exact absurd rfl hc

/-- A run of blanks is one lexeme. -/
theorem run_space (h : Trivia cs) (hrest : (CharClass.ofNext rest.head?).isBlank = false)
    (taken : List Char) :
    ∃ more cs', cs = more ++ cs' ∧ Trivia cs' ∧
      Scan.run .space taken (cs ++ rest) =
        .lexeme (.affiliation .space) (more.reverse ++ taken) (cs' ++ rest) := by
  induction h generalizing taken with
  | nil =>
    refine ⟨[], [], rfl, .nil, ?_⟩
    cases rest with
    | nil => rfl
    | cons c rest =>
      refine run_space_stop taken ?_
      intro hc
      rw [List.head?_cons, CharClass.ofNext, hc] at hrest
      cases hrest
  | @blank c cs hc h ih =>
    obtain ⟨more, cs', rfl, hcs', hrun⟩ := ih (c :: taken)
    refine ⟨c :: more, cs', rfl, hcs', ?_⟩
    have htaken : (c :: more).reverse ++ taken = more.reverse ++ c :: taken := by simp
    rw [List.cons_append, Scan.run, ofChar_of_blank hc, htaken]
    exact hrun
  | @lineEnd c cs hc h ih =>
    refine ⟨[], c :: cs, rfl, .lineEnd hc h, run_space_stop taken ?_⟩
    rcases ofChar_of_lineEnd hc with hclass | hclass <;> rw [hclass] <;> decide
  | lineComment hbody hshort hc h ih =>
    exact ⟨[], _, rfl, .lineComment hbody hshort hc h, run_space_stop taken (by decide)⟩
  | blockComment hbody hshort h ih =>
    exact ⟨[], _, rfl, .blockComment hbody hshort h, run_space_stop taken (by decide)⟩

/-- A line comment is one lexeme, without the end of its line. -/
theorem run_lineComment {body : List Char} (hbody : ∀ d ∈ body, d ∉ ['\n', '\r'])
    (hc : c ∈ ['\n', '\r']) (taken : List Char) :
    Scan.run .lineComment taken (body ++ c :: rest) =
      .lexeme (.affiliation .lineComment) (body.reverse ++ taken) (c :: rest) := by
  induction body generalizing taken with
  | nil =>
    rw [List.nil_append, Scan.run]
    rcases ofChar_of_lineEnd hc with hclass | hclass <;> rw [hclass] <;> rfl
  | cons d body ih =>
    have hd := hbody d List.mem_cons_self
    have hnewline : CharClass.ofChar d ≠ .newline := by
      intro hclass
      have hd' : d = '\n' := CharClass.eq_of_ofChar_eq (by simp) hclass
      exact hd (by simp [hd'])
    have hreturn : CharClass.ofChar d ≠ .carriageReturn := by
      intro hclass
      have hd' : d = '\r' := CharClass.eq_of_ofChar_eq (by simp) hclass
      exact hd (by simp [hd'])
    have hshift : LexState.next .lineComment (CharClass.ofChar d) = .shift .lineComment := by
      have hend := CharClass.ofChar_ne_endOfText d
      generalize CharClass.ofChar d = k at hnewline hreturn hend
      cases k <;> first | rfl | contradiction
    rw [List.cons_append, Scan.run, hshift, List.reverse_cons, List.append_assoc]
    exact ih (fun e he => hbody e (List.mem_cons_of_mem _ he)) (d :: taken)

/-- A block comment goes on to the first star with a slash after it. -/
theorem run_blockComment {body : List Char} (taken : List Char) :
    (¬ ['*', '/'] <:+: body ++ ['*'] →
      Scan.run .blockComment taken (body ++ '*' :: '/' :: rest) =
        .lexeme (.affiliation .blockComment) ('/' :: '*' :: (body.reverse ++ taken)) rest) ∧
    (¬ ['*', '/'] <:+: '*' :: (body ++ ['*']) →
      Scan.run .blockCommentStar taken (body ++ '*' :: '/' :: rest) =
        .lexeme (.affiliation .blockComment) ('/' :: '*' :: (body.reverse ++ taken)) rest) := by
  induction body generalizing taken with
  | nil => exact ⟨fun _ => rfl, fun _ => rfl⟩
  | cons d body ih =>
    obtain ⟨hplain, hstar⟩ := ih (d :: taken)
    rw [List.reverse_cons, List.append_assoc, List.singleton_append]
    by_cases hd : d = '*'
    · subst hd
      constructor
      · intro hbody
        exact hstar hbody
      · intro hbody
        refine hstar fun hinside => hbody ?_
        exact hinside.trans (List.infix_cons (List.infix_refl _))
    have hclass : CharClass.ofChar d ≠ .star := by
      intro h
      have hd' : d = '*' := CharClass.eq_of_ofChar_eq (by simp) h
      exact hd hd'
    have hend := CharClass.ofChar_ne_endOfText d
    constructor
    · intro hbody
      have hshift : LexState.next .blockComment (CharClass.ofChar d) = .shift .blockComment := by
        generalize CharClass.ofChar d = k at hclass hend
        cases k <;> first | rfl | contradiction
      rw [List.cons_append, Scan.run, hshift]
      exact hplain fun hinside => hbody (hinside.trans (List.infix_cons (List.infix_refl _)))
    · intro hbody
      have hslash : CharClass.ofChar d ≠ .slash := by
        intro h
        have hd' : d = '/' := CharClass.eq_of_ofChar_eq (by simp) h
        subst hd'
        exact hbody ⟨[], body ++ ['*'], rfl⟩
      have hshift :
          LexState.next .blockCommentStar (CharClass.ofChar d) = .shift .blockComment := by
        generalize CharClass.ofChar d = k at hclass hend hslash
        cases k <;> first | rfl | contradiction
      rw [List.cons_append, Scan.run, hshift]
      refine hplain fun hinside => hbody (hinside.trans ?_)
      exact (List.infix_cons (List.infix_refl _)).trans (List.infix_cons (List.infix_refl _))

/-- Trivia start with a lexeme that is kept for the next token, and what remains are trivia. -/
theorem exists_lexeme (h : Trivia (c :: cs))
    (hrest : (CharClass.ofNext rest.head?).isBlank = false) :
    ∃ style more cs', cs = more ++ cs' ∧ Trivia cs' ∧
      Scan.start c (cs ++ rest) =
        .lexeme (.affiliation style) (c :: more).reverse (cs' ++ rest) ∧
      (style.isComment = true → byteLength (c :: more) ≤ Limits.maxCommentLength) := by
  generalize htext : c :: cs = text at h
  cases h with
  | nil => cases htext
  | @blank d ds hc h =>
    cases htext
    obtain ⟨more, cs', rfl, hcs', hrun⟩ := run_space h hrest [c]
    refine ⟨.space, more, cs', rfl, hcs', ?_, by rintro ⟨⟩⟩
    rw [Scan.start, ofChar_of_blank hc, List.reverse_cons]
    exact hrun
  | @lineEnd d ds hc h =>
    cases htext
    simp only [List.mem_cons, List.not_mem_nil, or_false] at hc
    rcases hc with rfl | rfl
    · exact ⟨.newline, [], cs, rfl, h, rfl, by rintro ⟨⟩⟩
    · -- a line feed that comes next belongs to the same line end
      by_cases hfeed : cs.head? = some '\n'
      · obtain ⟨cs', rfl⟩ : ∃ cs', cs = '\n' :: cs' := List.head?_eq_some_iff.mp hfeed
        exact ⟨.newline, ['\n'], cs', rfl, h.of_newline, rfl, by rintro ⟨⟩⟩
      · refine ⟨.newline, [], cs, rfl, h, ?_, by rintro ⟨⟩⟩
        have hnext : CharClass.ofNext (cs ++ rest).head? ≠ .newline := by
          cases cs with
          | nil =>
            intro hclass
            rw [List.nil_append] at hclass
            rw [hclass] at hrest
            cases hrest
          | cons d cs =>
            intro hclass
            have hd : d = '\n' := CharClass.eq_of_ofChar_eq (by simp) hclass
            exact hfeed (by rw [hd]; rfl)
        change Scan.run .carriageReturn ['\r'] (cs ++ rest) = _
        cases hall : cs ++ rest with
        | nil => rfl
        | cons d ds =>
          rw [hall] at hnext
          rw [Scan.run]
          change CharClass.ofChar d ≠ .newline at hnext
          generalize CharClass.ofChar d = k at hnext
          cases k <;> first | rfl | contradiction
  | @lineComment body ds d hbody hshort hc h =>
    cases htext
    refine ⟨.lineComment, '/' :: body, d :: ds, by simp, .lineEnd hc h, ?_, fun _ => hshort⟩
    have hrun := @run_lineComment _ (ds ++ rest) _ hbody hc ['/', '/']
    change Scan.run .lineComment ['/', '/'] (body ++ d :: ds ++ rest) = _
    simpa using hrun
  | @blockComment body ds hbody hshort h =>
    cases htext
    refine ⟨.blockComment, '*' :: body ++ ['*', '/'], ds, by simp, h, ?_, fun _ => hshort⟩
    have hrun := (@run_blockComment (ds ++ rest) body ['*', '/']).1 hbody
    change Scan.run .blockComment ['*', '/'] (body ++ ['*', '/'] ++ ds ++ rest) = _
    simpa using hrun

end Trivia

/-! ### Lexers that pass trivia -/

namespace Lexer

variable {l m : Lexer} {style : AffiliationStyle} {chars rest : List Char}

/-- A comment stays a comment when its style is refined. -/
theorem isComment_refineStyle (style : AffiliationStyle) (chars : List Char) :
    (refineStyle style chars).isComment = style.isComment := by
  unfold refineStyle
  split <;> rfl

/-- What stands between tokens is not counted as one. -/
theorem totalTokens_addAffiliation (metrics : LexicalMetrics) (preferences : LexicalPreferences)
    (a : Affiliation) :
    (metrics.addAffiliation preferences a).totalTokens = metrics.totalTokens := by
  unfold LexicalMetrics.addAffiliation LexicalMetrics.addComment
  dsimp only
  split <;> split <;> (try split) <;> rfl

/-- A token is counted once. -/
theorem totalTokens_addToken (metrics : LexicalMetrics) (preferences : LexicalPreferences)
    (t : Token) : (metrics.addToken preferences t).totalTokens = metrics.totalTokens + 1 := by
  unfold LexicalMetrics.addToken LexicalMetrics.countClass LexicalMetrics.trackString
  dsimp only
  repeat' split
  all_goals rfl

/-- To keep a lexeme counts no token. -/
theorem totalTokens_keep (h : l.keep style chars rest = .ok m) :
    m.metrics.totalTokens = l.metrics.totalTokens := by
  simp only [keep] at h
  split at h
  · cases h
  · cases h
    exact totalTokens_addAffiliation _ _ _

/-- To skip what stands between tokens counts none. -/
theorem Skips.totalTokens_eq (h : Skips l m) : m.metrics.totalTokens = l.metrics.totalTokens := by
  induction h with
  | refl l => rfl
  | keep _ _ hkeep _ ih => rw [ih, totalTokens_keep hkeep]

/-- Only a comment that is too long is not kept. -/
theorem exists_keep (h : style.isComment = true → byteLength chars ≤ Limits.maxCommentLength)
    (rest : List Char) : ∃ m, l.keep style chars rest = .ok m := by
  cases hkeep : l.keep style chars rest with
  | ok m => exact ⟨m, rfl⟩
  | error outcome =>
    simp only [keep] at hkeep
    split at hkeep
    · rename_i hlong
      rw [isComment_refineStyle] at hlong
      have := h hlong.1
      omega
    · cases hkeep

/-- The lexer passes trivia and keeps them for the next token. -/
theorem skips_of_trivia {cs : List Char} (h : Trivia cs) (hall : l.rest = cs ++ rest)
    (hrest : (CharClass.ofNext rest.head?).isBlank = false) :
    ∃ m, Skips l m ∧ m.rest = rest ∧
      joined m.pendingFragments = joined l.pendingFragments ++ String.ofList cs := by
  induction hlength : cs.length using Nat.strongRecOn generalizing l cs with
  | ind n ih =>
    cases cs with
    | nil => exact ⟨l, .refl l, hall, by simp⟩
    | cons c cs =>
      obtain ⟨style, more, cs', rfl, hcs', hscan, hshort⟩ := h.exists_lexeme hrest
      obtain ⟨k, hkeep⟩ := l.exists_keep hshort (cs' ++ rest)
      obtain ⟨hk, -, hpending⟩ := keep_eq_ok hkeep
      have hlt : cs'.length < n := by
        simp only [List.length_cons, List.length_append] at hlength
        omega
      obtain ⟨m, hskips, hm, hjoined⟩ := ih cs'.length hlt hcs' hk rfl
      rw [← List.reverse_reverse (c :: more)] at hkeep
      refine ⟨m, .keep hall hscan hkeep hskips, hm, ?_⟩
      have hfragments : k.pendingFragments =
          l.pendingFragments ++ [⟨l.spanOf (c :: more), String.ofList (c :: more)⟩] := by
        simp [pendingFragments, hpending, Affiliation.fragment]
      have hchars : String.ofList (c :: (more ++ cs')) =
          String.ofList (c :: more) ++ String.ofList cs' := by
        rw [← String.ofList_append, List.cons_append]
      rw [hjoined, hfragments, joined_append, joined_singleton, hchars, String.append_assoc]

/-- Which tokens are accepted depends on how many there were, and not on where they stand. -/
theorem classify_congr {kind : TokenKind} {accepted : TokenKind × Option LiteralValue}
    (h : l.classify kind chars = .ok accepted)
    (hcount : m.metrics.totalTokens = l.metrics.totalTokens) :
    m.classify kind chars = .ok accepted := by
  rw [classify_eq] at h ⊢
  rw [hcount]
  split at h
  · cases h
  rename_i hmore
  rw [if_neg hmore]
  split at h
  · cases h
  rename_i hword
  rw [if_neg hword]
  split at h
  · cases h
  rename_i hstring
  rw [if_neg hstring]
  split at h
  · exact h
  · cases h

/-- A token that was delivered is read as itself before white space, and is accepted wherever
as many tokens come before it. -/
theorem exists_scan_of_lex {t : Token} (h : l.lex.result = .ok t) (hend : t.isEnd = false) :
    (∃ kind, (∀ next : CharClass, next.isBlank = true →
        Scan.kindOf t.source.toList next = some (.token kind)) ∧
      ∀ m : Lexer, m.metrics.totalTokens = l.metrics.totalTokens →
        m.classify kind t.source.toList = .ok (t.kind, t.value)) ∧
    l.lex.lexer.metrics.totalTokens = l.metrics.totalTokens + 1 := by
  obtain ⟨k, hskips, hends⟩ := exists_skips_ends_lex l
  have hcount := hskips.totalTokens_eq
  generalize l.lex = outcome at hends h
  cases hends with
  | finished =>
    cases h
    cases hend
  | stuck | refused | tooLong => cases h
  | @delivered c cs taken rest kind kind' value hrest hscan hclassify =>
    cases h
    have hsource : (k.tokenOf kind' taken.reverse value).source.toList = taken.reverse :=
      String.toList_ofList
    rw [hsource]
    refine ⟨⟨kind, fun next hnext => Scan.kindOf_of_start hscan hnext, ?_⟩, ?_⟩
    · intro m hm
      exact classify_congr hclassify (hm.trans hcount.symm)
    · change (k.metrics.addToken _ _).totalTokens = _
      rw [totalTokens_addToken, hcount]

/-- The text of what stands before a token is what the lexer has kept for it. -/
theorem lex_of_trivia {cs chars : List Char} {kind kind' : TokenKind} {value : Option LiteralValue}
    (h : Trivia cs) (hrest : l.rest = cs ++ (chars ++ rest)) (hpending : l.pendingFragments = [])
    (hscan : Scan.kindOf chars (.ofNext rest.head?) = some (.token kind))
    (hclassify : ∀ m : Lexer, m.metrics.totalTokens = l.metrics.totalTokens →
      m.classify kind chars = .ok (kind', value)) :
    ∃ t, l.lex.result = .ok t ∧ t.word = ⟨kind', String.ofList chars, value⟩ ∧
      joined (t.affiliations.map Affiliation.fragment) = String.ofList cs ∧
      l.lex.lexer.rest = rest ∧ l.lex.lexer.pendingFragments = [] ∧
      l.lex.lexer.metrics.totalTokens = l.metrics.totalTokens + 1 := by
  cases chars with
  | nil => cases hscan
  | cons c chars =>
    have hblank : (CharClass.ofNext ((c :: chars) ++ rest).head?).isBlank = false :=
      Scan.isBlank_of_kindOf hscan
    obtain ⟨m, hskips, hm, hjoined⟩ := skips_of_trivia h hrest hblank
    have hcount := hskips.totalTokens_eq
    have hstart := Scan.start_append hscan
    have hlex := lex_of_token hm hstart
    rw [List.reverse_reverse, deliver, hclassify m hcount] at hlex
    rw [hskips.lex_eq, hlex]
    refine ⟨_, rfl, rfl, ?_, rfl, rfl, ?_⟩
    · rw [hpending] at hjoined
      simpa [pendingFragments] using hjoined
    · change (m.metrics.addToken _ _).totalTokens = _
      rw [totalTokens_addToken, hcount]

/-- At the end of the text, trivia are kept for its end. -/
theorem lex_of_trivia_end {cs : List Char} (h : Trivia cs) (hrest : l.rest = cs)
    (hpending : l.pendingFragments = []) :
    ∃ t, l.lex.result = .ok t ∧ t.isEnd = true ∧
      joined (t.affiliations.map Affiliation.fragment) = String.ofList cs := by
  obtain ⟨m, hskips, hm, hjoined⟩ := @skips_of_trivia l [] _ h (by simpa using hrest) rfl
  rw [hskips.lex_eq, lex_of_nil hm]
  refine ⟨_, rfl, rfl, ?_⟩
  rw [hpending] at hjoined
  simpa [pendingFragments] using hjoined

end Lexer

/-! ### Tokens with other trivia between them -/

/-- The texts of tokens with other texts after each of them. -/
def weave (ts : List Token) (gaps : List String) : String :=
  String.join (List.zipWith (fun t gap => t.source ++ gap) ts gaps)

/-- A text that may stand after a token: trivia that start with white space. -/
structure IsGap (gap : String) : Prop where
  trivia : Trivia gap.toList
  blank : (CharClass.ofNext gap.toList.head?).isBlank = true

/-- Tokens that are woven with gaps start with the first token and the gap behind it. -/
theorem toList_weave_cons (t : Token) (ts : List Token) (gap : String) (gaps : List String) :
    (weave (t :: ts) (gap :: gaps)).toList =
      t.source.toList ++ (gap.toList ++ (weave ts gaps).toList) := by
  simp [weave]

/-- The text of what stands before a token. -/
def Token.gapText (t : Token) : String := String.join (t.affiliations.map Affiliation.text)

/-- What stands before a token is spelt by its fragments. -/
theorem Token.gapText_eq (t : Token) :
    t.gapText = joined (t.affiliations.map Affiliation.fragment) := by
  simp [gapText, joined, Affiliation.fragment, Function.comp_def]

/-- A token that was delivered is delivered again where other trivia stand before it, if it is
read before what comes next as it is before a space. -/
theorem Lexer.lex_again {l m : Lexer} {t : Token} {cs rest : List Char}
    (h : l.lex.result = .ok t) (hend : t.isEnd = false) (htrivia : Trivia cs)
    (hrest : m.rest = cs ++ (t.source.toList ++ rest)) (hpending : m.pendingFragments = [])
    (hcount : m.metrics.totalTokens = l.metrics.totalTokens)
    (hread : Scan.kindOf t.source.toList (.ofNext rest.head?) =
      Scan.kindOf t.source.toList .space) :
    ∃ t', m.lex.result = .ok t' ∧ t'.word = t.word ∧ t'.gapText = String.ofList cs ∧
      m.lex.lexer.rest = rest ∧ m.lex.lexer.pendingFragments = [] ∧
      m.lex.lexer.metrics.totalTokens = l.lex.lexer.metrics.totalTokens := by
  obtain ⟨⟨kind, hscan, hclassify⟩, hnext⟩ := exists_scan_of_lex h hend
  obtain ⟨t', hresult, hword, htext, hrest', hpending', hcount'⟩ :=
    lex_of_trivia htrivia hrest hpending (hread.trans (hscan .space rfl))
      fun k hk => hclassify k (hk.trans hcount)
  refine ⟨t', hresult, ?_, ?_, hrest', hpending', ?_⟩
  · rw [hword, String.ofList_toList]
    rfl
  · rw [Token.gapText_eq, htext]
  · rw [hcount', hnext, hcount]

/-- Tokens that a lexer delivers are delivered as the same words when other trivia stand between
them. -/
theorem Lexer.Delivers.weave {l l' m : Lexer} {body : List Token} {first : String}
    {gaps : List String} (hdelivers : l.Delivers body l') (hopen : ∀ t ∈ body, t.isEnd = false)
    (hlength : gaps.length = body.length) (hfirst : Trivia first.toList)
    (hgaps : ∀ gap ∈ gaps, IsGap gap)
    (hrest : m.rest = first.toList ++ (JavaSyntax.weave body gaps).toList)
    (hpending : m.pendingFragments = [])
    (hcount : m.metrics.totalTokens = l.metrics.totalTokens) :
    ∃ body' last m', m.Delivers (body' ++ [last]) m' ∧ last.isEnd = true ∧
      body'.map Token.word = body.map Token.word ∧
      (body' ++ [last]).map Token.gapText = first :: gaps := by
  induction hdelivers generalizing m first gaps with
  | nil l =>
    obtain rfl : gaps = [] := List.eq_nil_of_length_eq_zero hlength
    obtain ⟨t, hresult, hend, htext⟩ :=
      lex_of_trivia_end hfirst (by simpa [JavaSyntax.weave] using hrest) hpending
    refine ⟨[], t, m.lex.lexer, .cons hresult (fun _ => rfl) (.nil _), hend, rfl, ?_⟩
    simpa [Token.gapText_eq] using htext
  | @cons l l' t ts hresult hend htail ih =>
    obtain ⟨gap, gaps, rfl⟩ : ∃ gap gaps', gaps = gap :: gaps' :=
      List.exists_cons_of_length_eq_add_one hlength
    have hgap := hgaps gap List.mem_cons_self
    have ht := hopen t List.mem_cons_self
    obtain ⟨⟨kind, hscan, -⟩, -⟩ := exists_scan_of_lex hresult ht
    rw [toList_weave_cons] at hrest
    -- what stands after the token starts with white space, whatever comes behind it
    have hhead : (CharClass.ofNext (gap.toList ++ (JavaSyntax.weave ts gaps).toList).head?).isBlank
        = true := by
      cases hchars : gap.toList with
      | nil =>
        have hblank := hgap.blank
        rw [hchars] at hblank
        cases hblank
      | cons c cs => simpa [hchars] using hgap.blank
    obtain ⟨t', hresult', hword, htext, hrest', hpending', hcount'⟩ :=
      lex_again hresult ht hfirst hrest hpending hcount
        ((hscan _ hhead).trans (hscan .space rfl).symm)
    obtain ⟨body', last, m', hbody, hlast, hwords, htexts⟩ :=
      ih (fun u hu => hopen u (List.mem_cons_of_mem _ hu)) (by simpa using hlength) hgap.trivia
        (fun g hg => hgaps g (List.mem_cons_of_mem _ hg)) hrest' hpending' hcount'
    have hopen' : t'.isEnd = false := by
      rw [Token.isEnd, show t'.kind = t.kind from congrArg Word.kind hword]
      exact ht
    refine ⟨t' :: body', last, m', .cons hresult' (by simp [hopen']) hbody, hlast, ?_, ?_⟩
    · rw [List.map_cons, List.map_cons, hword, hwords]
    · rw [List.cons_append, List.map_cons, htexts, htext, String.ofList_toList]

/-- A text whose tokens are given other trivia, where each text that follows a token starts with
white space, is split into tokens of the same kinds, sources and values, and each of them is
given back the trivia before it. -/
theorem tokenize_weave {text first : String} {preferences : LexicalPreferences}
    {body : List Token} {last : Token} {gaps : List String}
    (h : (tokenize text preferences).toExcept = .ok (body ++ [last]))
    (hlength : gaps.length = body.length) (hfirst : Trivia first.toList)
    (hgaps : ∀ gap ∈ gaps, IsGap gap) :
    ∃ body' last', (tokenize (first ++ weave body gaps) preferences).toExcept =
        .ok (body' ++ [last']) ∧ last'.isEnd = true ∧ (∀ t ∈ body', t.isEnd = false) ∧
      body'.map Token.word = body.map Token.word ∧
      (body' ++ [last']).map Token.gapText = first :: gaps := by
  obtain ⟨full, m, -, -, hopen, hfull⟩ := tokenize_eq_ok h
  obtain ⟨rfl, -⟩ : body = full ∧ [last] = _ := List.append_inj' hfull rfl
  obtain ⟨hfailure, htokens⟩ := LexRun.toExcept_eq_ok.mp h
  obtain ⟨ts, l, hdelivers, hts⟩ := Lexer.exists_delivers_of_runFrom _ [] [] hfailure
  have hall : ts = body ++ [last] := hts.symm.trans htokens
  rw [hall] at hdelivers
  obtain ⟨m, hfront, -⟩ := hdelivers.split
  obtain ⟨body', last', m', hdelivers', hend, hwords, htexts⟩ :=
    hfront.weave (m := .ofText (first ++ weave body gaps) preferences) hopen hlength hfirst hgaps
      (by simp [Lexer.ofText]) rfl rfl
  obtain ⟨hfailure', htokens'⟩ := hdelivers'.runFrom_of_end (by simpa using hend) [] []
  refine ⟨body', last', ?_, hend, ?_, hwords, htexts⟩
  · exact LexRun.toExcept_eq_ok.mpr ⟨hfailure', htokens'⟩
  · intro t ht
    obtain ⟨pre, post, rfl⟩ := List.append_of_mem ht
    have hcut : pre ++ t :: post ++ [last'] = pre ++ t :: (post ++ [last']) := by simp
    exact hdelivers'.isEnd_eq_false hcut (by simp)

/-- Comments and other line ends between the tokens of a sum leave its tokens as they are. -/
theorem tokenize_weave_in_sum :
    ∃ body' last', (tokenize "/*x*/a\r\n++ //y\n+\tb " {}).toExcept = .ok (body' ++ [last']) ∧
      body'.map Token.word = (tokenize "a+++b" {}).tokens.dropLast.map Token.word ∧
      (body' ++ [last']).map Token.gapText = ["/*x*/", "\r\n", " //y\n", "\t", " "] := by
  have hfailure : (tokenize "a+++b" {}).failure = none := by decide +kernel
  have hsum := LexRun.toExcept_eq_ok.mpr ⟨hfailure, rfl⟩
  obtain ⟨body, m, -, -, -, htokens⟩ := tokenize_eq_ok hsum
  have hbody : (tokenize "a+++b" {}).tokens.dropLast = body := by
    rw [htokens, List.dropLast_concat]
  have hfirst : Trivia "/*x*/".toList :=
    @Trivia.blockComment ['x'] [] (by decide) (by decide) .nil
  have hgaps : ∀ gap ∈ ["\r\n", " //y\n", "\t", " "], IsGap gap := by
    simp only [List.mem_cons, List.not_mem_nil, or_false]
    rintro gap (rfl | rfl | rfl | rfl)
    · exact ⟨.lineEnd (by decide) (.lineEnd (by decide) .nil), rfl⟩
    · exact ⟨.blank (by decide) (@Trivia.lineComment ['y'] [] '\n' (by simp) (by decide)
        (by decide) .nil), rfl⟩
    · exact ⟨.blank (by decide) .nil, rfl⟩
    · exact ⟨.blank (by decide) .nil, rfl⟩
  have hlength : ["\r\n", " //y\n", "\t", " "].length = body.length := by
    rw [← hbody]
    decide +kernel
  have hweave : "/*x*/" ++ weave body ["\r\n", " //y\n", "\t", " "] =
      "/*x*/a\r\n++ //y\n+\tb " := by
    rw [← hbody]
    decide +kernel
  rw [htokens] at hsum
  obtain ⟨body', last', hwoven, -, -, hwords, htexts⟩ :=
    tokenize_weave hsum hlength hfirst hgaps
  rw [hweave] at hwoven
  rw [hbody]
  exact ⟨body', last', hwoven, hwords, htexts⟩

end JavaSyntax
