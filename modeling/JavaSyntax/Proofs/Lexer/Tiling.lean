import JavaSyntax.Proofs.Lexer.Calls
import JavaSyntax.Proofs.Text.Slices

/-!
# Tokens tile the text

A token and what stands before it are fragments of the text, each with the span that
it claims. The lexer cuts the text into such fragments without a gap and without an
overlap, as far as it gets: to the end of the text, or to the lexeme that it refuses.
-/

namespace JavaSyntax

/-! ### Fragments -/

/-- A part of a text, with the span that it is said to cover. -/
structure Fragment where
  span : Span
  text : String

def Affiliation.fragment (a : Affiliation) : Fragment := ⟨a.span, a.text⟩

/-- What stands before a token and the token itself, in the order of the text. -/
def Token.fragments (t : Token) : List Fragment :=
  t.affiliations.map Affiliation.fragment ++ [⟨t.span, t.source⟩]

/-- The text that fragments spell together. -/
def joined (fragments : List Fragment) : String := String.join (fragments.map (·.text))

@[simp] theorem joined_nil : joined [] = "" := rfl

/-- Fragments in a row spell one text after the other. -/
@[simp] theorem joined_append (fs gs : List Fragment) :
    joined (fs ++ gs) = joined fs ++ joined gs := by
  simp [joined]

/-- A fragment spells its text. -/
@[simp] theorem joined_singleton (f : Fragment) : joined [f] = f.text := by
  simp [joined]

/-- A token's full text is what its fragments spell. -/
theorem Token.joined_fragments (t : Token) : joined t.fragments = t.fullText := by
  simp [Token.fragments, Token.fullText, joined, Affiliation.fragment, Function.comp_def]

/-- The fragments of tokens spell the text that is put together from them. -/
theorem joined_flatMap_fragments (tokens : List Token) :
    joined (tokens.flatMap Token.fragments) = reconstruct tokens := by
  induction tokens with
  | nil => rfl
  | cons t tokens ih =>
    rw [List.flatMap_cons, joined_append, t.joined_fragments, ih]
    simp [reconstruct]

/-- Fragments tile a text from one byte offset to another: each starts where the one
before it stops, covers as many bytes as it has, and is the slice of the text under
its span. -/
inductive Tiles (text : String) : Nat → List Fragment → Nat → Prop
  | nil (offset : Nat) : Tiles text offset [] offset
  | cons {f : Fragment} {fs : List Fragment} {stop : Nat}
      (hsize : f.span.stop.offset = f.span.start.offset + f.text.utf8ByteSize)
      (hslice : f.span.slice text = f.text) (htail : Tiles text f.span.stop.offset fs stop) :
      Tiles text f.span.start.offset (f :: fs) stop

/-- Tiles may be laid next to each other. -/
theorem Tiles.append {text : String} {a b c : Nat} {fs gs : List Fragment}
    (hfs : Tiles text a fs b) (hgs : Tiles text b gs c) : Tiles text a (fs ++ gs) c := by
  induction hfs with
  | nil => exact hgs
  | cons hsize hslice _ ih => exact .cons hsize hslice (ih hgs)

/-- Tiles cover as many bytes as they spell. -/
theorem Tiles.stop_eq {text : String} {a b : Nat} {fs : List Fragment} (h : Tiles text a fs b) :
    b = a + (joined fs).utf8ByteSize := by
  induction h with
  | nil => simp
  | @cons f fs stop hsize hslice _ ih =>
    rw [ih, hsize, ← List.singleton_append, joined_append, joined_singleton,
      String.utf8ByteSize_append, Nat.add_assoc]

/-- Tiles can be taken apart where two lists of them meet. -/
theorem Tiles.exists_of_append {text : String} {a c : Nat} {fs gs : List Fragment}
    (h : Tiles text a (fs ++ gs) c) : ∃ b, Tiles text a fs b ∧ Tiles text b gs c := by
  induction fs generalizing a with
  | nil => exact ⟨a, .nil a, h⟩
  | cons f fs ih =>
    cases h with
    | cons hsize hslice htail =>
      obtain ⟨b, hfs, hgs⟩ := ih htail
      exact ⟨b, .cons hsize hslice hfs, hgs⟩

/-- A tile can be cut in two, if the place of the cut is right. -/
theorem Tiles.cut {text rest first second : String} {stop : Nat} {fs gs : List Fragment}
    {span : Span} {middle : Position} (h : Tiles text 0 (fs ++ ⟨span, first ++ second⟩ :: gs) stop)
    (htext : text = joined (fs ++ ⟨span, first ++ second⟩ :: gs) ++ rest)
    (hmiddle : middle.offset = span.start.offset + first.utf8ByteSize) :
    Tiles text 0 (fs ++ ⟨⟨span.start, middle⟩, first⟩ :: ⟨⟨middle, span.stop⟩, second⟩ :: gs)
      stop := by
  obtain ⟨b, hfs, htail⟩ := h.exists_of_append
  have hb : b = (joined fs).utf8ByteSize := by simpa using hfs.stop_eq
  have hwhole : text = joined fs ++ first ++ second ++ (joined gs ++ rest) := by
    rw [htext, ← List.singleton_append, joined_append, joined_append, joined_singleton]
    simp only [String.append_assoc]
  cases htail with
  | cons hsize hslice hgs =>
    have hstart : span.start.offset = (joined fs).utf8ByteSize := hb
    have hsize' : span.stop.offset = span.start.offset + (first ++ second).utf8ByteSize := hsize
    rw [String.utf8ByteSize_append] at hsize'
    have hfirst : textBetween text span.start.offset middle.offset = first := by
      have hbetween := textBetween_append (joined fs) first (second ++ (joined gs ++ rest))
      rwa [← String.append_assoc, ← hwhole, String.utf8ByteSize_append, ← hstart,
        ← hmiddle] at hbetween
    have hsecond : textBetween text middle.offset span.stop.offset = second := by
      have hbetween := textBetween_append (joined fs ++ first) second (joined gs ++ rest)
      simp only [String.utf8ByteSize_append] at hbetween
      rwa [← hwhole, ← hstart, Nat.add_assoc, ← hsize', ← hmiddle] at hbetween
    refine hfs.append (.cons (f := ⟨⟨span.start, middle⟩, first⟩) hmiddle hfirst ?_)
    refine .cons (f := ⟨⟨middle, span.stop⟩, second⟩) ?_ hsecond hgs
    simp only
    omega

/-! ### What a lexer has read -/

/-- What a lexer has covered of a text: fragments that tile the text up to where the lexer
stands, with the rest of the text still ahead. -/
structure Lexer.HasCovered (text : String) (fragments : List Fragment) (l : Lexer) : Prop where
  text_eq : text = joined fragments ++ String.ofList l.rest
  tiles : Tiles text 0 fragments l.position.offset

/-- What a lexer has read of a text: fragments that tile the text up to where the lexer
stands, none of them empty, with the rest of the text still ahead. -/
structure Lexer.HasRead (text : String) (fragments : List Fragment) (l : Lexer) : Prop where
  text_eq : text = joined fragments ++ String.ofList l.rest
  tiles : Tiles text 0 fragments l.position.offset
  nonempty : ∀ f ∈ fragments, f.text ≠ ""

namespace Lexer

variable {text : String} {fragments : List Fragment} {l m : Lexer}

/-- The fragments of what was read since the last token. -/
def pendingFragments (l : Lexer) : List Fragment := l.pending.toList.map Affiliation.fragment

/-- The token for the end of the text, as a lexer that stands there delivers it. -/
def endToken (l : Lexer) : Token := ⟨.endOfInput, .point l.position, l.pending.toList, "", none⟩

/-- At the start of a text nothing has been read. -/
theorem hasRead_ofText (text : String) (preferences : LexicalPreferences) :
    (ofText text preferences).HasRead text [] where
  text_eq := by simp [ofText]
  tiles := .nil 0
  nonempty := by simp

/-- A lexer stands behind what it has covered. -/
theorem HasCovered.offset_eq (h : l.HasCovered text fragments) :
    l.position.offset = (joined fragments).utf8ByteSize := by
  simpa using h.tiles.stop_eq

/-- Passing characters adds them to the tiles. -/
theorem HasCovered.add {chars rest : List Char} (h : l.HasCovered text fragments)
    (hrest : l.rest = chars ++ rest) (hm : m.rest = rest)
    (hposition : m.position = l.position.advanceChars chars) :
    m.HasCovered text (fragments ++ [⟨l.spanOf chars, String.ofList chars⟩]) := by
  have htext : text = joined fragments ++ String.ofList chars ++ String.ofList rest := by
    rw [h.text_eq, hrest, String.ofList_append, String.append_assoc]
  have hstop : (l.position.advanceChars chars).offset =
      (joined fragments ++ String.ofList chars).utf8ByteSize := by
    rw [Position.offset_advanceChars, h.offset_eq, String.utf8ByteSize_append,
      utf8ByteSize_ofList]
  constructor
  · rw [hm, joined_append, joined_singleton]
    exact htext
  · rw [hposition]
    refine h.tiles.append (.cons (f := ⟨l.spanOf chars, String.ofList chars⟩) ?_ ?_ (.nil _))
    · simp [spanOf, utf8ByteSize_ofList]
    · simp only [spanOf, Span.slice]
      rw [hstop, h.offset_eq, htext]
      exact textBetween_append _ _ _

/-- What was read is covered. -/
theorem HasRead.covered (h : l.HasRead text fragments) : l.HasCovered text fragments :=
  ⟨h.text_eq, h.tiles⟩

/-- A lexer stands behind what it has read. -/
theorem HasRead.offset_eq (h : l.HasRead text fragments) :
    l.position.offset = (joined fragments).utf8ByteSize :=
  h.covered.offset_eq

/-- Passing a lexeme adds it to the tiles. -/
theorem HasRead.add {chars rest : List Char} (h : l.HasRead text fragments)
    (hrest : l.rest = chars ++ rest) (hchars : chars ≠ []) (hm : m.rest = rest)
    (hposition : m.position = l.position.advanceChars chars) :
    m.HasRead text (fragments ++ [⟨l.spanOf chars, String.ofList chars⟩]) := by
  have hcovered := h.covered.add hrest hm hposition
  refine ⟨hcovered.text_eq, hcovered.tiles, ?_⟩
  intro f hf
  rcases List.mem_append.mp hf with hf | hf
  · exact h.nonempty f hf
  · rw [List.mem_singleton.mp hf]
    simpa using hchars

/-- What is skipped is pending and part of what has been read. -/
theorem Skips.hasRead {before : List Fragment} (hskips : Skips l m)
    (h : l.HasRead text (before ++ l.pendingFragments)) :
    m.HasRead text (before ++ m.pendingFragments) := by
  induction hskips with
  | refl => exact h
  | @keep l m n c cs taken rest style hrest hscan hkeep _ ih =>
    obtain ⟨hm, hposition, hpending⟩ := keep_eq_ok hkeep
    have happend := Scan.append_rest_of_start hscan
    apply ih
    have hadd := h.add (by rw [hrest, happend]) (Scan.reverse_ne_nil_of_start hscan) hm hposition
    simpa [pendingFragments, hpending, Affiliation.fragment] using hadd

/-! ### One call -/

/-- A delivered token continues the tiles, and nothing is pending after it. -/
theorem HasRead.lex_token {before : List Fragment} {t : Token}
    (h : l.HasRead text (before ++ l.pendingFragments)) (hresult : l.lex.result = .ok t)
    (hend : t.isEnd = false) :
    l.lex.lexer.HasRead text (before ++ t.fragments) ∧ l.lex.lexer.pending = #[] := by
  obtain ⟨m, hskips, hends⟩ := exists_skips_ends_lex l
  have hm := hskips.hasRead h
  generalize l.lex = outcome at hends hresult
  cases hends with
  | finished =>
    cases hresult
    cases hend
  | stuck | refused | tooLong => cases hresult
  | @delivered c cs taken rest kind kind' value hrest hscan hclassify =>
    cases hresult
    refine ⟨?_, rfl⟩
    have hall : m.rest = taken.reverse ++ rest := by
      rw [hrest, Scan.append_rest_of_start hscan]
    rw [Token.fragments, ← List.append_assoc]
    exact hm.add hall (Scan.reverse_ne_nil_of_start hscan) rfl rfl

/-- The end of the text is delivered when everything else has been read. -/
theorem HasRead.lex_end {before : List Fragment} {t : Token}
    (h : l.HasRead text (before ++ l.pendingFragments)) (hresult : l.lex.result = .ok t)
    (hend : t.isEnd = true) :
    ∃ m : Lexer, m.rest = [] ∧ m.HasRead text (before ++ m.pendingFragments) ∧
      t = m.endToken := by
  obtain ⟨m, hskips, hends⟩ := exists_skips_ends_lex l
  obtain ⟨hrest, hfinish⟩ := hends.eq_finish hresult hend
  rw [hfinish] at hresult
  cases hresult
  exact ⟨m, hrest, hskips.hasRead h, rfl⟩

end Lexer

/-! ### Errors -/

/-- An error is raised for the lexeme that starts at a byte offset and has these
characters: it quotes them, and it points at their start, or at a bad escape among
them. -/
structure LexError.RaisedFor (e : LexError) (start : Nat) (lexeme : List Char) : Prop where
  quotes : e.text = LexError.excerpt lexeme
  points : e.offset = start ∨ ∃ kind within,
    Literal.decode kind lexeme = .error (.invalidEscape within) ∧
      e.kind = .invalidEscape ∧ e.offset = start + within

namespace Lexer

variable {text : String} {l : Lexer}

/-- A lexeme that is refused as a whole is the one that the error is raised for. -/
theorem raisedFor_of_classify {kind : TokenKind} {chars : List Char} {e : LexError}
    (h : l.classify kind chars = .error e) : e.RaisedFor l.position.offset chars := by
  rcases classify_eq_error h with ⟨-, he⟩ | ⟨within, hdecode, rfl⟩
  · rw [he]
    exact ⟨rfl, .inl rfl⟩
  · exact ⟨rfl, .inr ⟨_, within, hdecode, rfl, rfl⟩⟩

/-- A refused lexeme starts where the fragments end that were read before it. -/
theorem HasRead.lex_error {before : List Fragment} {e : LexError}
    (h : l.HasRead text (before ++ l.pendingFragments)) (hresult : l.lex.result = .error e) :
    ∃ (m : Lexer) (c : Char) (cs : List Char), m.rest = c :: cs ∧
      m.HasRead text (before ++ l.lex.lexer.pendingFragments) ∧
      e.RaisedFor m.position.offset (Scan.start c cs).characters := by
  obtain ⟨m, hskips, hends⟩ := exists_skips_ends_lex l
  have hm := hskips.hasRead h
  generalize l.lex = outcome at hends hresult
  cases hends with
  | finished => cases hresult
  | @stuck c cs taken fault next hrest hscan =>
    cases hresult
    refine ⟨m, c, cs, hrest, hm, ?_⟩
    rw [hscan]
    exact ⟨rfl, .inl rfl⟩
  | @refused c cs taken rest kind e hrest hscan hclassify =>
    cases hresult
    refine ⟨m, c, cs, hrest, hm, ?_⟩
    rw [hscan]
    exact raisedFor_of_classify hclassify
  | @tooLong c cs taken rest style hrest hscan hlong =>
    cases hresult
    refine ⟨m, c, cs, hrest, hm, ?_⟩
    rw [hscan]
    exact ⟨rfl, .inl rfl⟩
  | @delivered c cs taken rest kind kind' value hrest hscan hclassify =>
    cases hresult

/-! ### A whole run -/

/-- A run to the end yields tiles of the whole text, and the end of the text once. -/
theorem HasRead.runFrom_tokens {tokens : List Token} {events : List LogEvent}
    (h : l.HasRead text (tokens.reverse.flatMap Token.fragments ++ l.pendingFragments))
    (htokens : ∀ t ∈ tokens, t.isEnd = false)
    (hfailure : (runFrom tokens events l).failure = none) :
    ∃ (body : List Token) (m : Lexer), m.rest = [] ∧
      m.HasRead text (body.flatMap Token.fragments ++ m.pendingFragments) ∧
      (∀ t ∈ body, t.isEnd = false) ∧
      (runFrom tokens events l).tokens =
        body ++ [m.endToken] := by
  fun_induction runFrom tokens events l with
  | case1 tokens events l outcome events' e hresult => cases hfailure
  | case2 tokens events l outcome events' t hresult hend =>
    obtain ⟨m, hrest, hm, rfl⟩ := h.lex_end hresult hend
    exact ⟨tokens.reverse, m, hrest, hm, by simpa using htokens, by simp⟩
  | case3 tokens events l outcome events' t hresult hend _ ih =>
    obtain ⟨hread, hpending⟩ := h.lex_token hresult (by simpa using hend)
    have hnone : outcome.lexer.pendingFragments = [] := by
      simp [pendingFragments, outcome, hpending]
    apply ih _ _ hfailure
    · rw [hnone, List.append_nil, List.reverse_cons, List.flatMap_append]
      simpa using hread
    · intro t' ht'
      rcases List.mem_cons.mp ht' with rfl | ht'
      · simpa using hend
      · exact htokens t' ht'

/-- A run that fails has read tiles up to the lexeme that it failed for. -/
theorem HasRead.runFrom_failure {tokens : List Token} {events : List LogEvent} {e : LexError}
    (h : l.HasRead text (tokens.reverse.flatMap Token.fragments ++ l.pendingFragments))
    (hfailure : (runFrom tokens events l).failure = some e) :
    ∃ (m : Lexer) (c : Char) (cs : List Char), m.rest = c :: cs ∧
      m.HasRead text ((runFrom tokens events l).tokens.flatMap Token.fragments ++
        (runFrom tokens events l).lexer.pendingFragments) ∧
      e.RaisedFor m.position.offset (Scan.start c cs).characters := by
  fun_induction runFrom tokens events l with
  | case1 tokens events l outcome events' e' hresult =>
    cases hfailure
    exact h.lex_error hresult
  | case2 tokens events l outcome events' t hresult hend => cases hfailure
  | case3 tokens events l outcome events' t hresult hend _ ih =>
    obtain ⟨hread, hpending⟩ := h.lex_token hresult (by simpa using hend)
    have hnone : outcome.lexer.pendingFragments = [] := by
      simp [pendingFragments, outcome, hpending]
    apply ih _ hfailure
    rw [hnone, List.append_nil, List.reverse_cons, List.flatMap_append]
    simpa using hread

/-- What is pending spells the text that stands before the next token. -/
theorem joined_pendingFragments (l : Lexer) :
    joined l.pendingFragments = String.join (l.pending.toList.map (·.text)) := by
  simp [joined, pendingFragments, Affiliation.fragment, Function.comp_def]

end Lexer

namespace Lexer

variable {text : String} {l : Lexer}

/-- At the end of the text, its end is one more tile, an empty one. -/
theorem HasRead.tiles_end {before : List Fragment} (h : l.HasRead text before)
    (hrest : l.rest = []) :
    text = joined before ∧
      Tiles text 0 (before ++ [⟨.point l.position, ""⟩]) text.utf8ByteSize := by
  have htext : text = joined before := by simpa [hrest] using h.text_eq
  refine ⟨htext, ?_⟩
  have hoffset : l.position.offset = text.utf8ByteSize := by rw [h.offset_eq, ← htext]
  have hslice : (Span.point l.position).slice text = "" := by
    have hbetween := textBetween_append text "" ""
    simpa [Span.slice, Span.point, hoffset] using hbetween
  rw [← hoffset]
  exact h.tiles.append (.cons (f := ⟨.point l.position, ""⟩) rfl hslice (.nil _))

end Lexer

/-- A token is one of its fragments. -/
theorem Token.fragment_mem_fragments (t : Token) : ⟨t.span, t.source⟩ ∈ t.fragments := by
  simp [Token.fragments]

/-- What stands before a token is among its fragments. -/
theorem Affiliation.fragment_mem_fragments {t : Token} {a : Affiliation}
    (h : a ∈ t.affiliations) : a.fragment ∈ t.fragments := by
  simp only [Token.fragments, List.mem_append, List.mem_map]
  exact .inl ⟨a, h, rfl⟩

/-- At the start of a run nothing has been read. -/
private theorem hasRead_start (text : String) (preferences : LexicalPreferences) :
    (Lexer.ofText text preferences).HasRead text
      (([] : List Token).reverse.flatMap Token.fragments ++
        (Lexer.ofText text preferences).pendingFragments) :=
  Lexer.hasRead_ofText text preferences

/-- A run comes to its tokens if it does not fail. -/
theorem LexRun.toExcept_eq_ok {r : LexRun} {tokens : List Token} :
    r.toExcept = .ok tokens ↔ r.failure = none ∧ r.tokens = tokens := by
  unfold toExcept
  cases r.failure <;> simp

/-- A run comes to an error exactly if it has failed with that. -/
theorem LexRun.toExcept_eq_error {r : LexRun} {e : LexError} :
    r.toExcept = .error e ↔ r.failure = some e := by
  unfold toExcept
  cases r.failure <;> simp

/-- The tokens of a text: those that tile it, and its end with what is left over. -/
theorem tokenize_eq_ok {text : String} {preferences : LexicalPreferences} {tokens : List Token}
    (h : (tokenize text preferences).toExcept = .ok tokens) :
    ∃ (body : List Token) (m : Lexer), m.rest = [] ∧
      m.HasRead text (body.flatMap Token.fragments ++ m.pendingFragments) ∧
      (∀ t ∈ body, t.isEnd = false) ∧
      tokens = body ++ [m.endToken] := by
  obtain ⟨hfailure, rfl⟩ := LexRun.toExcept_eq_ok.mp h
  exact (hasRead_start text preferences).runFrom_tokens (by simp) hfailure

/-- The lexeme that stops a run, and what was read before it. -/
theorem tokenize_eq_error {text : String} {preferences : LexicalPreferences} {e : LexError}
    (h : (tokenize text preferences).toExcept = .error e) :
    ∃ (m : Lexer) (c : Char) (cs : List Char), m.rest = c :: cs ∧
      m.HasRead text ((tokenize text preferences).tokens.flatMap Token.fragments ++
        (tokenize text preferences).lexer.pendingFragments) ∧
      e.RaisedFor m.position.offset (Scan.start c cs).characters := by
  exact (hasRead_start text preferences).runFrom_failure (LexRun.toExcept_eq_error.mp h)

/-- The tokens of a text tile it to its end, and spell it. -/
theorem tiles_of_tokenize {text : String} {preferences : LexicalPreferences} {tokens : List Token}
    (h : (tokenize text preferences).toExcept = .ok tokens) :
    Tiles text 0 (tokens.flatMap Token.fragments) text.utf8ByteSize ∧
      reconstruct tokens = text := by
  obtain ⟨body, m, hrest, hm, _, rfl⟩ := tokenize_eq_ok h
  obtain ⟨htext, htiles⟩ := hm.tiles_end hrest
  have hfragments : (body ++ [m.endToken]).flatMap Token.fragments =
      body.flatMap Token.fragments ++ m.pendingFragments ++ [⟨.point m.position, ""⟩] := by
    simp [Lexer.endToken, Token.fragments, Lexer.pendingFragments]
  rw [← joined_flatMap_fragments, hfragments]
  refine ⟨htiles, ?_⟩
  rw [joined_append, ← htext]
  simp

/-- Nothing empty stands before a token. -/
theorem affiliations_nonempty_of_tokenize {text : String} {preferences : LexicalPreferences}
    {tokens : List Token} (h : (tokenize text preferences).toExcept = .ok tokens) :
    ∀ t ∈ tokens, ∀ a ∈ t.affiliations, a.text ≠ "" := by
  obtain ⟨body, m, -, hm, -, rfl⟩ := tokenize_eq_ok h
  intro t ht a ha
  rcases List.mem_append.mp ht with ht | ht
  · exact hm.nonempty a.fragment (List.mem_append_left _
      (List.mem_flatMap.mpr ⟨t, ht, Affiliation.fragment_mem_fragments ha⟩))
  · obtain rfl := List.mem_singleton.mp ht
    exact hm.nonempty a.fragment (List.mem_append_right _ (List.mem_map_of_mem ha))

/-- Tokenizing loses nothing. A text that can be split into tokens is tiled by them and by
what stands before them, down to the end of the text, which comes last and only there. A
text that cannot be split is read exactly up to the lexeme for which the error is
raised. -/
theorem tokenize_tiles (text : String) (preferences : LexicalPreferences) :
    (∀ tokens, (tokenize text preferences).toExcept = .ok tokens →
      (∃ body last, tokens = body ++ [last] ∧ last.isEnd = true ∧
        ∀ t ∈ body, t.isEnd = false ∧ t.source ≠ "") ∧
      (∀ t ∈ tokens, ∀ a ∈ t.affiliations, a.text ≠ "") ∧
      Tiles text 0 (tokens.flatMap Token.fragments) text.utf8ByteSize ∧
      reconstruct tokens = text) ∧
    ∀ e, (tokenize text preferences).toExcept = .error e →
      ∃ (read : String) (c : Char) (cs : List Char),
        read = reconstruct (tokenize text preferences).tokens ++
          String.join ((tokenize text preferences).lexer.pending.toList.map (·.text)) ∧
        text = read ++ String.ofList (c :: cs) ∧
        e.RaisedFor read.utf8ByteSize (Scan.start c cs).characters := by
  constructor
  · intro tokens hok
    obtain ⟨body, m, hrest, hm, hbody, rfl⟩ := tokenize_eq_ok hok
    obtain ⟨htiles, htext⟩ := tiles_of_tokenize hok
    refine ⟨⟨body, _, rfl, rfl, ?_⟩, affiliations_nonempty_of_tokenize hok, htiles, htext⟩
    intro t ht
    exact ⟨hbody t ht, hm.nonempty _ (List.mem_append_left _
      (List.mem_flatMap.mpr ⟨t, ht, t.fragment_mem_fragments⟩))⟩
  · intro e herror
    obtain ⟨m, c, cs, hrest, hm, hraised⟩ := tokenize_eq_error herror
    refine ⟨_, c, cs, rfl, ?_, ?_⟩
    · rw [← hrest, ← Lexer.joined_pendingFragments, ← joined_flatMap_fragments, ← joined_append]
      exact hm.text_eq
    · rw [← Lexer.joined_pendingFragments, ← joined_flatMap_fragments, ← joined_append]
      rwa [hm.offset_eq] at hraised

/-- A text with comments is tiled to its end, and one with a bad literal after a comment
up to that literal. -/
theorem tokenize_tiles_samples :
    Tiles "a = /**/ b; // c" 0
        ((tokenize "a = /**/ b; // c" {}).tokens.flatMap Token.fragments) 16 ∧
      ∃ c cs, "a /**/09+" = reconstruct (tokenize "a /**/09+" {}).tokens ++
          String.join ((tokenize "a /**/09+" {}).lexer.pending.toList.map (·.text)) ++
          String.ofList (c :: cs) ∧
        (⟨.invalidNumber .octalDigit, "09", 6⟩ : LexError).RaisedFor 6
          (Scan.start c cs).characters := by
  constructor
  · have hfailure : (tokenize "a = /**/ b; // c" {}).failure = none := by decide +kernel
    have hsize : "a = /**/ b; // c".utf8ByteSize = 16 := by decide +kernel
    have htiles := ((tokenize_tiles "a = /**/ b; // c" {}).1 _
      (LexRun.toExcept_eq_ok.mpr ⟨hfailure, rfl⟩)).2.2.1
    rwa [hsize] at htiles
  · have hfailure : (tokenize "a /**/09+" {}).failure =
        some ⟨.invalidNumber .octalDigit, "09", 6⟩ := by decide +kernel
    obtain ⟨read, c, cs, hread, htext, hraised⟩ :=
      (tokenize_tiles "a /**/09+" {}).2 _ (LexRun.toExcept_eq_error.mpr hfailure)
    have hsize : read.utf8ByteSize = 6 := by
      rw [hread]
      decide +kernel
    rw [hsize] at hraised
    exact ⟨c, cs, by rw [← hread]; exact htext, hraised⟩

end JavaSyntax
