import JavaSyntax.Proofs.Lexer.Touching
import JavaSyntax.Proofs.Token.Twins
import JavaSyntax.Proofs.Tree.Setting

/-!
# Reading a script again

A text that is made of the words of a script, with white space in the gaps, is split into these
words again if each word that touches the next one is read before it as before a space. All that
is needed besides is that the words were tokens of some text, so that none of them is refused.
-/

namespace JavaSyntax

/-- A word is read before another mark as it is before a space. -/
def Mark.KeepsApart : Mark → Mark → Prop
  | .word _ text, .word _ next =>
    Scan.kindOf text.toList (.ofNext next.toList.head?) = Scan.kindOf text.toList .space
  | _, _ => True

namespace Script

variable {ms : Script} {cs : List Char}

/-- Whether each word touches the one before it. The first one may stand behind another word. -/
def touching : Bool → Script → List Bool
  | _, [] => []
  | _, .gap :: ms => touching false ms
  | close, .word _ _ :: ms => close :: touching true ms

/-- The words of `non-sealed` start at an index and touch. -/
def JoinedAt (ms : Script) (i : Nat) : Prop :=
  ms.words[i]? = some (.identifier, "non") ∧ (ms.words[i + 1]?).map Prod.fst = some .minus ∧
    ms.words[i + 2]? = some (.identifier, "sealed") ∧
    (ms.touching true)[i + 1]? = some true ∧ (ms.touching true)[i + 2]? = some true

/-- Spaces and line feeds are trivia. -/
theorem trivia_of_blanks {blanks : List Char} (h : ∀ c ∈ blanks, c ∈ [' ', '\n']) :
    Trivia blanks := by
  induction blanks with
  | nil => exact .nil
  | cons c blanks ih =>
    obtain ⟨hc, hblanks⟩ := List.forall_mem_cons.mp h
    simp only [List.mem_cons, List.not_mem_nil, or_false] at hc
    rcases hc with rfl | rfl
    · exact .blank (by decide) (ih hblanks)
    · exact .lineEnd (by decide) (ih hblanks)

/-- A script without words has no words that touch. -/
theorem touching_of_words_nil (h : ms.words = []) (close : Bool) : ms.touching close = [] := by
  induction ms generalizing close with
  | nil => rfl
  | cons m ms ih =>
    cases m with
    | gap => exact ih h false
    | word => cases h

/-- Where no word comes first there is white space, or nothing at all. -/
theorem Spaced.endsBefore_head (h : ms.Spaced cs) (hms : ∀ m ∈ ms.head?, m = .gap)
    (kind : TokenKind) : kind.EndsBefore (.ofNext cs.head?) := by
  induction h with
  | nil => exact TokenKind.endsBefore_endOfText
  | word => cases hms _ rfl
  | @gap blanks ms cs hblanks hgap h ih =>
    cases blanks with
    | nil =>
      refine ih fun m hm => ?_
      obtain ⟨rest, rfl⟩ := List.head?_eq_some_iff.mp hm
      cases m with
      | gap => rfl
      | word => exact absurd (hgap.resolve_left (absurd rfl)) (List.cons_ne_nil _ _)
    | cons c blanks =>
      have hc := hblanks c List.mem_cons_self
      simp only [List.mem_cons, List.not_mem_nil, or_false] at hc
      rcases hc with rfl | rfl <;> exact TokenKind.endsBefore_of_isBlank rfl

end Script

/-- Tokens that are delivered are read before a space. -/
theorem Lexer.Delivers.exists_kindOf {l m : Lexer} {ts : List Token} {t : Token}
    (h : l.Delivers ts m) (ht : t ∈ ts) (hend : t.isEnd = false) :
    ∃ kind, Scan.kindOf t.source.toList .space = some (.token kind) ∧
      Lexer.refineKind kind t.source.toList = t.kind := by
  induction h with
  | nil => cases ht
  | cons hresult _ _ ih =>
    rcases List.mem_cons.mp ht with rfl | ht
    · obtain ⟨⟨kind, hscan, hclassify⟩, -⟩ := exists_scan_of_lex hresult hend
      exact ⟨kind, hscan .space rfl, (classify_eq_ok (hclassify _ rfl)).1.symm⟩
    · exact ih ht

/-- Tokens that are delivered are words. -/
theorem Lexer.Delivers.isWord {l m : Lexer} {ts : List Token} {t : Token}
    (h : l.Delivers ts m) (ht : t ∈ ts) (hend : t.isEnd = false) : IsWord t.kind t.source := by
  obtain ⟨kind, hscan, hrefine⟩ := h.exists_kindOf ht hend
  refine ⟨fun hkind => ?_, ?_, h.spelt t ht⟩
  · rw [Token.isEnd, hkind] at hend
    cases hend
  · rw [hscan, ← hrefine, refineKind]
    split
    · rename_i hname
      rw [hname, TokenKind.scanned_classifyWord]
    · rw [Scan.scanned_of_kindOf hscan]

/-- Tokens that are delivered are not empty, apart from the end. -/
theorem Lexer.Delivers.source_ne_empty {l m : Lexer} {ts : List Token} {t : Token}
    (h : l.Delivers ts m) (ht : t ∈ ts) (hend : t.isEnd = false) : t.source ≠ "" := by
  obtain ⟨c, cs, hchars⟩ := (h.isWord ht hend).exists_cons
  intro hempty
  rw [hempty] at hchars
  cases hchars

/-- What stands behind a word lets it be read as before a space. -/
theorem Script.Spaced.kindOf_head {ms : Script} {cs : List Char} {kind : TokenKind} {text : String}
    (h : ms.Spaced cs) (hapart : List.IsChain Mark.KeepsApart (.word kind text :: ms))
    (hwords : ∀ w ∈ ms.words, w.2 ≠ "")
    (htext : ∃ kind, Scan.kindOf text.toList .space = some (.token kind)) :
    Scan.kindOf text.toList (.ofNext cs.head?) = Scan.kindOf text.toList .space := by
  obtain ⟨k, hk⟩ := htext
  by_cases hms : ∀ m ∈ ms.head?, m = .gap
  · rw [Scan.kindOf_of_endsBefore hk (h.endsBefore_head hms k), hk]
  · cases h with
    | nil => simp at hms
    | gap => simp at hms
    | @word kind' text' ms cs h =>
      have hne : text'.toList ≠ [] := by simpa using hwords _ List.mem_cons_self
      rw [List.head?_append_of_ne_nil _ hne]
      exact (List.isChain_cons_cons.mp hapart).1

/-- Tokens that a lexer delivers are delivered as the same words where they stand like the words
of a script that keep apart. -/
theorem Lexer.Delivers.respaced {l l' m : Lexer} {body : List Token} {ms : Script}
    {before cs : List Char} (hdelivers : l.Delivers body l') (hopen : ∀ t ∈ body, t.isEnd = false)
    (hspaced : ms.Spaced cs) (hwords : ms.words = body.map fun t => (t.kind, t.source))
    (hapart : List.IsChain Mark.KeepsApart ms) (hblanks : ∀ c ∈ before, c ∈ [' ', '\n'])
    (hrest : m.rest = before ++ cs) (hpending : m.pendingFragments = [])
    (hcount : m.metrics.totalTokens = l.metrics.totalTokens) :
    ∃ body' last m', m.Delivers (body' ++ [last]) m' ∧ last.isEnd = true ∧
      body'.map Token.word = body.map Token.word ∧
      body'.map (·.gapText == "") = ms.touching before.isEmpty := by
  induction hspaced generalizing l m body before with
  | nil =>
    obtain rfl : body = [] := List.map_eq_nil_iff.mp hwords.symm
    obtain ⟨t, hresult, hend, -⟩ :=
      lex_of_trivia_end (Script.trivia_of_blanks hblanks) (by simpa using hrest) hpending
    exact ⟨[], t, m.lex.lexer, .cons hresult (fun _ => rfl) (.nil _), hend, rfl, rfl⟩
  | @gap blanks ms cs hmore hgap h ih =>
    have hall : ∀ c ∈ before ++ blanks, c ∈ [' ', '\n'] := by
      intro c hc
      exact (List.mem_append.mp hc).elim (hblanks c) (hmore c)
    obtain ⟨body', last, m', hbody, hlast, hsame, htouching⟩ :=
      ih hdelivers hopen hwords hapart.of_cons hall (by simpa using hrest) hpending hcount
    refine ⟨body', last, m', hbody, hlast, hsame, ?_⟩
    rw [htouching, Script.touching]
    rcases hgap with hne | hnone
    · rw [List.isEmpty_eq_false_iff.mpr (by simp [hne])]
    · rw [Script.touching_of_words_nil hnone, Script.touching_of_words_nil hnone]
  | @word kind text ms cs h ih =>
    cases hdelivers with
    | nil => cases hwords
    | @cons _ _ t ts hresult hend htail =>
      obtain ⟨hfirst, (hmore : ms.words = _)⟩ := List.cons.inj hwords
      obtain ⟨rfl, rfl⟩ := Prod.mk.inj hfirst
      have ht := hopen t List.mem_cons_self
      have hopens : ∀ u ∈ ts, u.isEnd = false := fun u hu => hopen u (List.mem_cons_of_mem _ hu)
      have hne : ∀ w ∈ ms.words, w.2 ≠ "" := by
        rw [hmore]
        exact List.forall_mem_map.mpr fun u hu => htail.source_ne_empty hu (hopens u hu)
      obtain ⟨kind, hkind, -⟩ :=
        (Delivers.cons hresult hend htail).exists_kindOf List.mem_cons_self ht
      have hread := h.kindOf_head hapart hne ⟨kind, hkind⟩
      obtain ⟨t', hresult', hword, htext, hrest', hpending', hcount'⟩ :=
        lex_again hresult ht (Script.trivia_of_blanks hblanks) hrest hpending hcount hread
      obtain ⟨body', last, m', hbody, hlast, hsame, htouching⟩ :=
        @ih _ _ ts [] htail hopens hmore hapart.of_cons nofun hrest' hpending' hcount'
      have hopen' : t'.isEnd = false := by
        rw [Token.isEnd, show t'.kind = t.kind from congrArg Word.kind hword]
        exact ht
      refine ⟨t' :: body', last, m', .cons hresult' (by simp [hopen']) hbody, hlast, ?_, ?_⟩
      · rw [List.map_cons, List.map_cons, hword, hsame]
      · rw [List.map_cons, htouching, htext, Script.touching]
        cases before <;> simp

/-! ### Texts -/

/-- Nothing stands before a token if the text of that is empty. -/
theorem Token.affiliations_eq_nil_iff {t : Token} (h : ∀ a ∈ t.affiliations, a.text ≠ "") :
    t.affiliations = [] ↔ (t.gapText == "") = true := by
  rw [beq_iff_eq, Token.gapText]
  cases hall : t.affiliations with
  | nil => simp
  | cons a as =>
    have ha := h a (by rw [hall]; exact List.mem_cons_self)
    simp [String.join_cons, ha]

namespace Script

/-- The words of a script are the tokens of a text, and both have the same `non-sealed` in one
piece. -/
structure SpeltBy (ms : Script) (ts : List Token) : Prop where
  words_eq : ts.map (fun t => (t.kind, t.source)) = ms.words ++ [(.endOfInput, "")]
  joined_iff : ∀ i, JavaSyntax.JoinedAt ts i ↔ ms.JoinedAt i

/-- Where no word is `non`, the words are all that counts. -/
theorem SpeltBy.of_words {ms : Script} {ts : List Token}
    (hwords : ts.map (fun t => (t.kind, t.source)) = ms.words ++ [(.endOfInput, "")])
    (hnon : ∀ w ∈ ms.words, w.2 ≠ "non") : ms.SpeltBy ts := by
  refine ⟨hwords, fun i => iff_of_false ?_ ?_⟩
  · rintro ⟨first, -, -, hfirst, -, -, hisWord, -⟩
    have hmem : (first.kind, first.source) ∈ ms.words ++ [(.endOfInput, "")] := by
      rw [← hwords]
      exact List.mem_map_of_mem (List.mem_of_getElem? hfirst)
    obtain ⟨-, hsource⟩ : first.kind = .identifier ∧ first.source = "non" := by
      simpa [Token.isWord] using hisWord
    rcases List.mem_append.mp hmem with hmem | hmem
    · exact hnon _ hmem hsource
    · rw [hsource] at hmem
      simp at hmem
  · rintro ⟨hfirst, -⟩
    exact hnon _ (List.mem_of_getElem? hfirst) rfl

/-- The end of a text is no part of `non-sealed`. -/
theorem joinedAt_concat {body : List Token} {last : Token} (hlast : last.isEnd = true) (i : Nat) :
    JavaSyntax.JoinedAt (body ++ [last]) i ↔ JavaSyntax.JoinedAt body i := by
  have hmem {j : Nat} {t : Token} {kind : TokenKind} (ht : (body ++ [last])[j]? = some t)
      (hkind : t.kind = kind) (hne : kind ≠ .endOfInput) : body[j]? = some t := by
    rw [List.getElem?_append] at ht
    split at ht
    · exact ht
    · obtain rfl := List.mem_singleton.mp (List.mem_of_getElem? ht)
      exact absurd (hkind.symm.trans (eq_of_beq hlast)) hne
  constructor
  · rintro ⟨first, second, third, hfirst, hsecond, hthird, hnon, hminus, hsealed, htouch⟩
    exact ⟨first, second, third, hmem hfirst (Token.kind_of_isWord hnon) nofun,
      hmem hsecond hminus nofun, hmem hthird (Token.kind_of_isWord hsealed) nofun, hnon, hminus,
      hsealed, htouch⟩
  · rintro ⟨first, second, third, hfirst, hsecond, hthird, hjoined⟩
    have hmore {j : Nat} {t : Token} (ht : body[j]? = some t) : (body ++ [last])[j]? = some t := by
      rwa [List.getElem?_append_left (List.getElem?_eq_some_iff.mp ht).1]
    exact ⟨first, second, third, hmore hfirst, hmore hsecond, hmore hthird, hjoined⟩

/-- Tokens that are the words of a script and touch where these touch have the same `non-sealed`
in one piece. -/
theorem joinedAt_iff {ms : Script} {body : List Token} {last : Token}
    (hwords : ms.words = body.map fun t => (t.kind, t.source))
    (htouching : ms.touching true = body.map (·.gapText == "")) (hlast : last.isEnd = true)
    (hnonempty : ∀ t ∈ body, ∀ a ∈ t.affiliations, a.text ≠ "") (i : Nat) :
    JavaSyntax.JoinedAt (body ++ [last]) i ↔ ms.JoinedAt i := by
  have haffiliations {j : Nat} {t : Token} (ht : body[j]? = some t) :
      t.affiliations = [] ↔ (t.gapText == "") = true :=
    Token.affiliations_eq_nil_iff (hnonempty t (List.mem_of_getElem? ht))
  rw [joinedAt_concat hlast, JavaSyntax.JoinedAt, JoinedAt, hwords, htouching]
  simp only [List.getElem?_map]
  rcases hfirst : body[i]? with _ | first
  · simp
  rcases hsecond : body[i + 1]? with _ | second
  · simp
  rcases hthird : body[i + 2]? with _ | third
  · simp
  simp [Token.isWord, haffiliations hsecond, haffiliations hthird, and_assoc]

end Script

/-- The lexer delivers the tokens of a text one after the other, and the last one is its end. -/
theorem exists_delivers_of_tokenize {text : String} {preferences : LexicalPreferences}
    {ts : List Token} (h : (tokenize text preferences).toExcept = .ok ts) :
    ∃ (body : List Token) (l m : Lexer), ts = body ++ [m.endToken] ∧ (∀ t ∈ body, t.isEnd = false) ∧
      (Lexer.ofText text preferences).Delivers ts l := by
  obtain ⟨body, m, -, -, hopen, rfl⟩ := tokenize_eq_ok h
  obtain ⟨hfailure, htokens⟩ := LexRun.toExcept_eq_ok.mp h
  obtain ⟨full, l, hdelivers, hfull⟩ := Lexer.exists_delivers_of_runFrom _ [] [] hfailure
  obtain rfl : full = body ++ [m.endToken] := hfull.symm.trans htokens
  exact ⟨body, l, m, rfl, hopen, hdelivers⟩

section Texts

variable {text text' : String} {preferences : LexicalPreferences} {ts : List Token} {ms : Script}

/-- Words that are the tokens of a text are what the automaton makes of them. -/
theorem isWord_of_tokenize (h : (tokenize text preferences).toExcept = .ok ts)
    (hwords : ts.map (fun t => (t.kind, t.source)) = ms.words ++ [(.endOfInput, "")]) :
    ∀ w ∈ ms.words, IsWord w.1 w.2 := by
  obtain ⟨body, l, m, rfl, hopen, hdelivers⟩ := exists_delivers_of_tokenize h
  rw [List.map_append] at hwords
  obtain ⟨hwords, -⟩ := List.append_inj' hwords rfl
  rw [← hwords]
  intro w hw
  obtain ⟨t, ht, rfl⟩ := List.mem_map.mp hw
  exact hdelivers.isWord (List.mem_append_left _ ht) (hopen t ht)

/-- The words of a text, written like a script in which they keep apart, are its tokens again. -/
theorem tokenize_of_spaced (h : (tokenize text preferences).toExcept = .ok ts)
    (hwords : ts.map (fun t => (t.kind, t.source)) = ms.words ++ [(.endOfInput, "")])
    (hspaced : ms.Spaced text'.toList) (hapart : List.IsChain Mark.KeepsApart ms) :
    ∃ us, (tokenize text' preferences).toExcept = .ok us ∧ us.map Token.word = ts.map Token.word ∧
      ∀ i, JoinedAt us i ↔ ms.JoinedAt i := by
  obtain ⟨body, l, m, rfl, hopen, hdelivers⟩ := exists_delivers_of_tokenize h
  rw [List.map_append] at hwords
  obtain ⟨hwords, -⟩ := List.append_inj' hwords rfl
  obtain ⟨l', hfront, -⟩ := hdelivers.split
  obtain ⟨body', last, m', hdelivers', hlast, hsame, htouching⟩ :=
    @Lexer.Delivers.respaced _ _ (.ofText text' preferences) _ _ [] _ hfront hopen hspaced
      hwords.symm hapart nofun rfl rfl rfl
  obtain ⟨hfailure', htokens'⟩ := hdelivers'.runFrom_of_end (by simpa using hlast) [] []
  have hok : (tokenize text' preferences).toExcept = .ok (body' ++ [last]) :=
    LexRun.toExcept_eq_ok.mpr ⟨hfailure', htokens'⟩
  obtain ⟨_, m'', -, -, -, hend⟩ := tokenize_eq_ok hok
  obtain ⟨-, hend⟩ := List.append_inj' hend rfl
  obtain rfl := List.singleton_injective hend
  refine ⟨_, hok, ?_, Script.joinedAt_iff ?_ htouching.symm hlast ?_⟩
  · rw [List.map_append, List.map_append, hsame]
    rfl
  · rw [← hwords]
    have hpairs := congrArg (List.map fun w : Word => (w.kind, w.text)) hsame
    simpa [Function.comp_def, Token.word] using hpairs.symm
  · intro t ht
    exact affiliations_nonempty_of_tokenize hok t (List.mem_append_left _ ht)

end Texts

end JavaSyntax
