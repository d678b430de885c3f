import JavaSyntax.Proofs.Token.Angles

/-!
# Texts made of words and blanks

A lexeme ends where the automaton cannot go on, so which lexemes a text has depends only on
their characters and on the class of the character after each. If each word of a text can end
before what follows it, the lexer delivers these words, unless it meets one of its limits. A
run of closing angles comes out as other words than it was put in, but as the same angles.
-/

namespace JavaSyntax

/-! ### Lexemes that end before a character -/

namespace Scan

variable {s : LexState} {c : Char} {cs rest : List Char} {kind : LexemeKind}

/-- What lexeme some characters complete that stand inside it, if they do before a character
of a class. -/
def kindFrom (s : LexState) : List Char → CharClass → Option LexemeKind
  | [], next =>
    match s.next next with
    | .stop kind => some kind
    | _ => none
  | c :: cs, next =>
    match s.next (.ofChar c) with
    | .shift s => kindFrom s cs next
    | .take kind => if cs.isEmpty then some kind else none
    | _ => none

/-- What lexeme some characters are, if they are one before a character of a class. -/
def kindOf : List Char → CharClass → Option LexemeKind
  | [], _ => none
  | c :: cs, next =>
    match LexState.first (.ofChar c) with
    | .shift s => kindFrom s cs next
    | .take kind => if cs.isEmpty then some kind else none
    | _ => none

/-- A lexeme that is complete before the next character is read as a run over the text. -/
theorem run_append (taken : List Char) (h : kindFrom s cs (.ofNext rest.head?) = some kind) :
    run s taken (cs ++ rest) = .lexeme kind (cs.reverse ++ taken) rest := by
  induction cs generalizing s taken with
  | nil =>
    rw [kindFrom] at h
    cases rest with
    | nil =>
      rw [List.nil_append, run]
      change (match s.next .endOfText with | .stop kind => some kind | _ => none) = _ at h
      split at h
      · rename_i k hnext
        obtain rfl := Option.some.inj h
        rw [hnext]
        rfl
      · cases h
    | cons d rest =>
      rw [List.nil_append, run]
      change (match s.next (.ofChar d) with | .stop kind => some kind | _ => none) = _ at h
      split at h
      · rename_i k hnext
        obtain rfl := Option.some.inj h
        rw [hnext]
        rfl
      · cases h
  | cons c cs ih =>
    rw [kindFrom] at h
    rw [List.cons_append, run]
    split at h
    · rename_i s' hnext
      rw [hnext]
      dsimp only
      rw [ih (c :: taken) h, List.reverse_cons, List.append_assoc]
      rfl
    · rename_i k hnext
      rw [hnext]
      cases cs with
      | nil =>
        obtain rfl := Option.some.inj h
        rfl
      | cons => cases h
    · cases h

/-- Characters that are a lexeme before what follows them are read as this lexeme. -/
theorem start_append (h : kindOf (c :: cs) (.ofNext rest.head?) = some kind) :
    start c (cs ++ rest) = .lexeme kind (c :: cs).reverse rest := by
  rw [kindOf] at h
  rw [start]
  split at h
  · rename_i s hfirst
    rw [hfirst, List.reverse_cons]
    exact run_append [c] h
  · rename_i k hfirst
    rw [hfirst]
    cases cs with
    | nil =>
      obtain rfl := Option.some.inj h
      rfl
    | cons => cases h
  · cases h

/-- An identifier goes on with every character that may continue one, and ends before all
others. -/
theorem next_identifier (c : CharClass) :
    LexState.next .identifier c =
      if c.continuesIdentifier then .shift .identifier else .before .identifier := rfl

/-- Characters of an identifier are read as one before anything that does not continue it. -/
theorem kindFrom_identifier {next : CharClass}
    (hcs : ∀ c ∈ cs, (CharClass.ofChar c).continuesIdentifier = true)
    (hnext : next.continuesIdentifier = false) :
    kindFrom .identifier cs next = some (.token .identifier) := by
  induction cs with
  | nil => rw [kindFrom, next_identifier, hnext, if_neg nofun]
  | cons c cs ih =>
    rw [kindFrom, next_identifier, hcs c List.mem_cons_self, if_pos rfl]
    exact ih fun d hd => hcs d (List.mem_cons_of_mem _ hd)

/-- A character that may start an identifier does so. -/
theorem first_of_startsIdentifier {c : CharClass} (h : c.startsIdentifier = true) :
    LexState.first c = .shift .identifier := by
  cases c <;> first | rfl | cases h

end Scan

/-- Whether a word has the form of an identifier. -/
def isIdentifier (word : String) : Bool :=
  match word.toList with
  | [] => false
  | c :: cs =>
    (CharClass.ofChar c).startsIdentifier &&
      cs.all fun c => (CharClass.ofChar c).continuesIdentifier

/-- Whether a word can name a variable or a type. -/
def isName (word : String) : Bool := isIdentifier word && !isReservedWord word

/-- A reserved word has the form of an identifier. -/
theorem isIdentifier_keyword (keyword : Keyword) : isIdentifier keyword.text = true := by
  cases keyword <;> decide +kernel

/-- An identifier ends before a character that cannot go on with it. -/
theorem kindOf_of_isIdentifier {word : String} (h : isIdentifier word = true) {next : CharClass}
    (hnext : next.continuesIdentifier = false) :
    Scan.kindOf word.toList next = some (.token .identifier) := by
  unfold isIdentifier at h
  split at h
  · cases h
  · rename_i c cs hword
    obtain ⟨hstart, hcs⟩ := Bool.and_eq_true_iff.mp h
    rw [hword, Scan.kindOf, Scan.first_of_startsIdentifier hstart]
    exact Scan.kindFrom_identifier (List.all_eq_true.mp hcs) hnext

/-- There is no line feed in an identifier. -/
theorem newline_notMem_of_isIdentifier {word : String} (h : isIdentifier word = true) :
    '\n' ∉ word.toList := by
  unfold isIdentifier at h
  split at h
  · cases h
  · rename_i c cs hword
    obtain ⟨hstart, hcs⟩ := Bool.and_eq_true_iff.mp h
    rw [hword]
    intro hmem
    rcases List.mem_cons.mp hmem with rfl | hmem
    · cases hstart
    · cases List.all_eq_true.mp hcs _ hmem

/-! ### Pieces -/

/-- The word of a kind that is spelt in one way only. -/
def Word.sign (kind : TokenKind) : Word := ⟨kind, kind.symbol?.getD "", none⟩

/-- Whether a kind is that of a separator or an operator. -/
def TokenKind.isSign (kind : TokenKind) : Bool :=
  kind.symbol?.isSome && !kind.isKeyword && !kind.isLiteral

/-- The word that a name is. -/
def Word.name (name : String) : Word := ⟨.identifier, name, none⟩

/-- A word, or the blank between two. -/
inductive Piece where
  | blank
  | word (w : Word)

namespace Piece

def chars : Piece → List Char
  | blank => [' ']
  | word w => w.text.toList

def word? : Piece → Option Word
  | blank => none
  | word w => some w

/-- The characters of some pieces. -/
def spelling (ps : List Piece) : List Char := ps.flatMap chars

/-- The words among some pieces. -/
def words (ps : List Piece) : List Word := ps.filterMap word?

/-- The class of the first character of some pieces, given what follows them. -/
def leading (ps : List Piece) (next : CharClass) : CharClass :=
  (spelling ps).head?.elim next .ofChar

end Piece

/-- A word is read as itself if a character of a class comes next. -/
structure Word.ReadBefore (w : Word) (next : CharClass) : Prop where
  scan : ∃ kind, Scan.kindOf w.text.toList next = some (.token kind) ∧
    Lexer.refineKind kind w.text.toList = w.kind
  decode : Literal.decode w.kind w.text.toList = .ok w.value
  inline : '\n' ∉ w.text.toList

/-- A piece is read as itself if a character of a class comes next. -/
def Piece.ReadBefore : Piece → CharClass → Prop
  | .blank, next => next ≠ .space
  | .word w, next => w.ReadBefore next

/-- Pieces are read as themselves, one after the other. -/
def Piece.Legible : List Piece → CharClass → Prop
  | [], _ => True
  | p :: ps, next => p.ReadBefore (leading ps next) ∧ Legible ps next

/-! ### What the lexer delivers -/

/-- Whether an error means that a limit of the lexer is exceeded. -/
def LexErrorKind.isLimit : LexErrorKind → Bool
  | .identifierTooLong _ | .stringTooLarge _ | .commentTooLong _ | .tooManyTokens _ => true
  | _ => false

namespace Lexer

variable {l m : Lexer} {tokens : List Token} {events : List LogEvent} {ps : List Piece}

/-- A word that the automaton reads is delivered, unless a limit is exceeded. -/
theorem lex_of_readBefore {w : Word} {rest : List Char} (hrest : l.rest = w.text.toList ++ rest)
    (hw : w.ReadBefore (.ofNext rest.head?)) :
    (∃ e, l.lex.result = .error e ∧ e.kind.isLimit = true) ∨
      ∃ t, l.lex.result = .ok t ∧ t.word = w ∧ t.isEnd = false ∧ l.lex.lexer.rest = rest := by
  obtain ⟨kind, hscan, hkind⟩ := hw.scan
  cases hchars : w.text.toList with
  | nil =>
    rw [hchars] at hscan
    cases hscan
  | cons c cs =>
    rw [hchars] at hscan hrest
    have hstart := Scan.start_append hscan
    have hlex := lex_of_token hrest hstart
    rw [List.reverse_reverse, ← hchars] at hlex
    rw [hlex, deliver, classify_eq, hkind, hw.decode]
    by_cases hcount : Limits.maxTokenCount ≤ l.metrics.totalTokens
    · rw [if_pos hcount]
      exact .inl ⟨_, rfl, rfl⟩
    rw [if_neg hcount]
    by_cases hlong : kind = .identifier ∧ Limits.maxIdentifierLength < w.text.toList.length
    · rw [if_pos hlong]
      exact .inl ⟨_, rfl, rfl⟩
    rw [if_neg hlong]
    by_cases hlarge : (kind = .stringLiteral ∨ kind = .textBlock) ∧
        Limits.maxStringSize < byteLength w.text.toList
    · rw [if_pos hlarge]
      exact .inl ⟨_, rfl, rfl⟩
    rw [if_neg hlarge]
    refine .inr ⟨_, rfl, ?_, ?_, rfl⟩
    · rw [Token.word, String.ofList_toList]
    · have hkind' : kind ≠ .endOfInput := Scan.ne_endOfInput_of_start hstart
      apply beq_false_of_ne
      dsimp only
      rw [← hkind, refineKind]
      split
      · exact classifyWord_ne_endOfInput _
      · exact hkind'

/-- A blank is kept for the next token. -/
theorem lex_of_blank {rest : List Char} (hrest : l.rest = ' ' :: rest)
    (hnext : CharClass.ofNext rest.head? ≠ .space) :
    ∃ m : Lexer, l.lex = m.lex ∧ m.rest = rest := by
  have hkindOf : Scan.kindOf [' '] (.ofNext rest.head?) = some (.affiliation .space) := by
    generalize CharClass.ofNext rest.head? = next at hnext
    cases next <;> first | rfl | exact absurd rfl hnext
  have hstart := Scan.start_append hkindOf
  obtain ⟨m, hkeep⟩ : ∃ m, l.keep .space [' '] rest = .ok m := ⟨_, rfl⟩
  exact ⟨m, (Skips.keep hrest hstart hkeep (.refl m)).lex_eq, rest_keep hkeep⟩

/-- The lexer delivers the words of legible pieces and then the end of the text, unless it
meets a limit. It may have passed blanks already that stand before the pieces. -/
theorem runFrom_of_legible (tokens : List Token) (events : List LogEvent)
    (hps : Piece.Legible ps .endOfText) (hlex : l.lex = m.lex) (hrest : m.rest = Piece.spelling ps) :
    (∃ e, (runFrom tokens events l).failure = some e ∧ e.kind.isLimit = true) ∨
      (runFrom tokens events l).failure = none ∧
        (runFrom tokens events l).tokens.map Token.word =
          tokens.reverse.map Token.word ++ Piece.words ps ++ [.stop] := by
  induction ps generalizing l m tokens events with
  | nil =>
    have hresult : l.lex.result = m.finish.result := by rw [hlex, lex_of_nil hrest]
    have hdelivers := Delivers.cons hresult (fun _ => rfl) (.nil _)
    obtain ⟨hnone, htokens⟩ := hdelivers.runFrom_of_end rfl tokens events
    refine .inr ⟨hnone, ?_⟩
    rw [htokens, List.map_append]
    simp only [Piece.words, List.filterMap_nil, List.append_nil]
    rfl
  | cons p ps ih =>
    obtain ⟨hp, hps⟩ := hps
    have hspelling : Piece.spelling (p :: ps) = p.chars ++ Piece.spelling ps := rfl
    have hnext : Piece.leading ps .endOfText = .ofNext (Piece.spelling ps).head? := by
      rw [Piece.leading]
      cases (Piece.spelling ps).head? <;> rfl
    rw [hspelling] at hrest
    rw [hnext] at hp
    cases p with
    | blank =>
      obtain ⟨m', hskip, hrest'⟩ := lex_of_blank hrest hp
      exact ih _ _ hps (hlex.trans hskip) hrest'
    | word w =>
      rcases lex_of_readBefore hrest hp with ⟨e, herror, he⟩ | ⟨t, hresult, rfl, hend, hrest'⟩
      · rw [← hlex] at herror
        exact .inl ⟨e, failure_runFrom_of_error herror, he⟩
      · rw [← hlex] at hresult hrest'
        rw [runFrom_of_token hresult hend]
        rcases ih _ _ hps rfl hrest' with hlimit | ⟨hnone, htokens⟩
        · exact .inl hlimit
        · refine .inr ⟨hnone, ?_⟩
          rw [htokens]
          simp [Piece.words, Piece.word?]

end Lexer

/-! ### Words that are read as themselves -/

namespace Word

variable {next : CharClass}

/-- A name is read as itself before anything that does not continue an identifier. -/
theorem readBefore_name {name : String} (h : isName name = true)
    (hnext : next.continuesIdentifier = false) : (Word.name name).ReadBefore next := by
  obtain ⟨hidentifier, hfree⟩ := Bool.and_eq_true_iff.mp h
  have hclass : classifyWord name = .identifier := by
    simpa [isReservedWord] using hfree
  refine ⟨⟨.identifier, kindOf_of_isIdentifier hidentifier hnext, ?_⟩, rfl,
    newline_notMem_of_isIdentifier hidentifier⟩
  rw [Lexer.refineKind, if_pos rfl, Word.name, String.ofList_toList]
  exact hclass

/-- A reserved word is read as itself before anything that does not continue an identifier. -/
theorem readBefore_keyword (keyword : Keyword) (hnext : next.continuesIdentifier = false) :
    (Word.sign (.keyword keyword)).ReadBefore next := by
  have hidentifier := isIdentifier_keyword keyword
  have hclass : classifyWord keyword.text = .keyword keyword := by
    cases keyword <;> decide +kernel
  refine ⟨⟨.identifier, kindOf_of_isIdentifier hidentifier hnext, ?_⟩, rfl,
    newline_notMem_of_isIdentifier hidentifier⟩
  rw [Lexer.refineKind, if_pos rfl, String.ofList_toList]
  exact hclass

/-- A separator or an operator is read as itself if the automaton ends with it. -/
theorem readBefore_sign {kind : TokenKind} (hkind : kind.isSign = true)
    (h : Scan.kindOf (Word.sign kind).text.toList next = some (.token kind)) :
    (Word.sign kind).ReadBefore next := by
  have hvalue : Literal.decode kind (Word.sign kind).text.toList = .ok none := by
    cases kind <;> first | rfl | cases hkind
  have hinline : '\n' ∉ (Word.sign kind).text.toList := by
    cases kind <;> first | cases hkind; done | decide
  have hrefine : Lexer.refineKind kind (Word.sign kind).text.toList = kind := by
    rw [Lexer.refineKind, if_neg]
    rintro rfl
    cases hkind
  exact ⟨⟨kind, h, hrefine⟩, hvalue, hinline⟩

end Word

/-! ### Closing angles -/

namespace Piece

/-- A piece that has nothing to do with closing angles. -/
def Apart (p : Piece) : Prop :=
  p.chars.head? ≠ some '>' ∧ ∀ w, p.word? = some w → w.kind.isAngle = false

/-- Pieces are read as themselves, one after the other, except that a closing angle is read
together with those that follow it. -/
def Readable : List Piece → CharClass → Prop
  | [], _ => True
  | p :: ps, next =>
    (p = .word .angle ∧ leading ps next ≠ .equals ∨ p.Apart ∧ p.ReadBefore (leading ps next)) ∧
      Readable ps next

/-- Pieces in a row are spelt one after the other. -/
theorem spelling_append (ps qs : List Piece) :
    spelling (ps ++ qs) = spelling ps ++ spelling qs := List.flatMap_append

/-- The words of pieces in a row follow each other. -/
theorem words_append (ps qs : List Piece) : words (ps ++ qs) = words ps ++ words qs :=
  List.filterMap_append

/-- Pieces start with the first of them, or with what follows. -/
theorem leading_append (ps qs : List Piece) (next : CharClass) :
    leading (ps ++ qs) next = leading ps (leading qs next) := by
  rw [leading, leading, spelling_append, List.head?_append]
  cases (spelling ps).head? <;> rfl

/-- Pieces that are read as themselves may follow each other. -/
theorem Legible.append {ps qs : List Piece} {next : CharClass} (hps : Legible ps (leading qs next))
    (hqs : Legible qs next) : Legible (ps ++ qs) next := by
  induction ps with
  | nil => exact hqs
  | cons p ps ih =>
    obtain ⟨hp, hps⟩ := hps
    rw [← leading_append] at hp
    exact ⟨hp, ih hps⟩

/-- What is read in parts is read as a whole. -/
theorem Readable.append {ps qs : List Piece} {next : CharClass}
    (hps : Readable ps (leading qs next)) (hqs : Readable qs next) :
    Readable (ps ++ qs) next := by
  induction ps with
  | nil => exact hqs
  | cons p ps ih =>
    obtain ⟨hp, hps⟩ := hps
    rw [← leading_append] at hp
    exact ⟨hp, ih hps⟩

/-- A blank is no closing angle. -/
theorem apart_blank : blank.Apart := ⟨by decide, fun _ hw => by cases hw⟩

/-- A sign that does not start with a closing angle has nothing to do with them. -/
theorem apart_sign {kind : TokenKind} (hkind : kind.isAngle = false)
    (hhead : (Word.sign kind).text.toList.head? ≠ some '>') : (word (.sign kind)).Apart := by
  refine ⟨hhead, ?_⟩
  rintro w ⟨⟩
  exact hkind

/-- A word like an identifier has nothing to do with closing angles. -/
theorem apart_of_isIdentifier {w : Word} (h : isIdentifier w.text = true)
    (hkind : w.kind.isAngle = false) : (word w).Apart := by
  constructor
  · unfold isIdentifier at h
    change w.text.toList.head? ≠ _
    split at h
    · cases h
    · rename_i c cs hword
      rw [hword]
      rintro ⟨⟩
      cases h
  · rintro w ⟨⟩
    exact hkind

/-- A name has nothing to do with closing angles. -/
theorem apart_name {name : String} (h : isIdentifier name = true) :
    (word (.name name)).Apart := apart_of_isIdentifier h rfl

/-- A reserved word has nothing to do with closing angles. -/
theorem apart_keyword (keyword : Keyword) : (word (.sign (.keyword keyword))).Apart :=
  apart_of_isIdentifier (isIdentifier_keyword keyword) rfl

/-- What starts with an identifier starts with a character that may start one. -/
theorem startsIdentifier_leading {w : Word} (h : isIdentifier w.text = true) (ps : List Piece)
    (next : CharClass) : (leading (.word w :: ps) next).startsIdentifier = true := by
  unfold isIdentifier at h
  have hspelling : spelling (.word w :: ps) = w.text.toList ++ spelling ps := rfl
  rw [leading, hspelling]
  split at h
  · cases h
  · rename_i c cs hword
    rw [hword]
    exact (Bool.and_eq_true_iff.mp h).1

/-- There is no line feed in pieces that are read as themselves. -/
theorem Legible.newline_notMem {ps : List Piece} {next : CharClass} (h : Legible ps next) :
    '\n' ∉ spelling ps := by
  induction ps with
  | nil => exact nofun
  | cons p ps ih =>
    have hp : '\n' ∉ p.chars := by
      cases p with
      | blank => decide
      | word w => exact h.1.inline
    intro hmem
    rcases List.mem_append.mp hmem with hmem | hmem
    · exact hp hmem
    · exact ih h.2 hmem

/-- Pieces that are read as themselves stand on one line. -/
theorem Readable.newline_notMem {ps : List Piece} {next : CharClass} (h : Readable ps next) :
    '\n' ∉ spelling ps := by
  induction ps with
  | nil => exact nofun
  | cons p ps ih =>
    have hp : '\n' ∉ p.chars := by
      rcases h.1 with ⟨rfl, -⟩ | ⟨-, hread⟩
      · decide
      · cases p with
        | blank => decide
        | word w => exact hread.inline
    intro hmem
    rcases List.mem_append.mp hmem with hmem | hmem
    · exact hp hmem
    · exact ih h.2 hmem

/-- A piece that is read has characters. -/
theorem ReadBefore.chars_ne_nil {p : Piece} {next : CharClass} (h : p.ReadBefore next) :
    p.chars ≠ [] := by
  cases p with
  | blank => exact nofun
  | word w =>
    obtain ⟨kind, hscan, -⟩ := h.scan
    intro hnil
    rw [show w.text.toList = [] from hnil] at hscan
    cases hscan

/-- What does not start with an angle does not go on with one. -/
theorem Readable.leading_ne_greater {ps : List Piece} (h : Readable ps .endOfText)
    (hfirst : ∀ qs, ps ≠ .word .angle :: qs) : leading ps .endOfText ≠ .greater := by
  cases ps with
  | nil => exact nofun
  | cons p ps =>
    rcases h.1 with ⟨rfl, -⟩ | ⟨⟨hhead, -⟩, hread⟩
    · exact absurd rfl (hfirst ps)
    · cases hchars : p.chars with
      | nil => exact absurd hchars hread.chars_ne_nil
      | cons c cs =>
        rw [hchars] at hhead
        have hleading : leading (p :: ps) .endOfText = .ofChar c := by
          rw [leading, spelling, List.flatMap_cons, hchars]
          rfl
        rw [hleading]
        intro hgreater
        have hc : c = '>' := CharClass.eq_of_symbol? (by rw [hgreater]; rfl)
        exact hhead (by rw [hc]; rfl)

/-- Legible pieces that are spelt like other pieces and have the same words, if each closing
angle counts for itself. -/
structure Glued (ps qs : List Piece) : Prop where
  legible : Legible qs .endOfText
  spelling_eq : spelling qs = spelling ps
  words_eq : (words qs).flatMap Word.singles = words ps

/-- Pieces that are spelt alike start alike. -/
theorem Glued.leading_eq {ps qs : List Piece} (h : Glued ps qs) (next : CharClass) :
    leading qs next = leading ps next := by
  rw [leading, leading, h.spelling_eq]

/-- Some angles make up a word. -/
theorem Glued.cons_word {ps qs : List Piece} (h : Glued ps qs) (w : Word) (angles : List Piece)
    (hw : w.ReadBefore (leading ps .endOfText)) (htext : w.text.toList = spelling angles)
    (hsingles : w.singles = words angles) : Glued (angles ++ ps) (.word w :: qs) where
  legible := ⟨by rw [h.leading_eq]; exact hw, h.legible⟩
  spelling_eq := by
    rw [spelling_append, ← htext, ← h.spelling_eq]
    rfl
  words_eq := by
    rw [words_append, ← hsingles, ← h.words_eq]
    rfl

/-- A piece that is read as itself stays. -/
theorem Glued.cons {ps qs : List Piece} (h : Glued ps qs) {p : Piece} (hp : p.Apart)
    (hread : p.ReadBefore (leading ps .endOfText)) : Glued (p :: ps) (p :: qs) where
  legible := ⟨by rw [h.leading_eq]; exact hread, h.legible⟩
  spelling_eq := congrArg (p.chars ++ ·) h.spelling_eq
  words_eq := by
    cases p with
    | blank => exact h.words_eq
    | word w =>
      have hw := Word.singles_of_isAngle (hp.2 w rfl)
      change (w :: words qs).flatMap Word.singles = w :: words ps
      rw [List.flatMap_cons, hw, h.words_eq]
      rfl

/-- Closing angles before something else make up words: three at a time while there are three,
and then the rest. -/
theorem Glued.angles {ps qs : List Piece} (h : Glued ps qs)
    (hgreater : leading ps .endOfText ≠ .greater) (hequals : leading ps .endOfText ≠ .equals) :
    (k : Nat) → ∃ qs, Glued (List.replicate k (.word .angle) ++ ps) qs
  | 0 => ⟨qs, h⟩
  | 1 => by
    refine ⟨_, h.cons_word (.sign .greater) [.word .angle] ?_ rfl rfl⟩
    apply Word.readBefore_sign rfl
    generalize leading ps .endOfText = next at hgreater hequals
    cases next <;> first | rfl | contradiction
  | 2 => by
    refine ⟨_, h.cons_word (.sign .shiftRight) [.word .angle, .word .angle] ?_ rfl rfl⟩
    apply Word.readBefore_sign rfl
    generalize leading ps .endOfText = next at hgreater hequals
    cases next <;> first | rfl | contradiction
  | k + 3 => by
    obtain ⟨qs, hqs⟩ := h.angles hgreater hequals k
    refine ⟨_, hqs.cons_word (.sign .unsignedShiftRight)
      [.word .angle, .word .angle, .word .angle] ?_ rfl rfl⟩
    have hnext : leading (List.replicate k (.word .angle) ++ ps) .endOfText ≠ .equals := by
      cases k with
      | zero => exact hequals
      | succ k => exact nofun
    apply Word.readBefore_sign rfl
    generalize leading (List.replicate k (.word .angle) ++ ps) .endOfText = next at hnext
    cases next <;> first | rfl | contradiction

/-- Readable pieces are some closing angles, which may be none, and then pieces that do not
start with one. -/
structure Angled (ps : List Piece) (k : Nat) (rest : List Piece) : Prop where
  eq_append : ps = List.replicate k (.word .angle) ++ rest
  glued : ∃ qs, Glued rest qs
  ne_greater : leading rest .endOfText ≠ .greater
  ne_equals : k ≠ 0 → leading rest .endOfText ≠ .equals

/-- Closing angles can be put together as the lexer takes them. -/
theorem Angled.exists_glued {ps rest : List Piece} {k : Nat} (h : Angled ps k rest) :
    ∃ qs, Glued ps qs := by
  obtain ⟨qs, hqs⟩ := h.glued
  rw [h.eq_append]
  cases k with
  | zero => exact ⟨qs, hqs⟩
  | succ k => exact hqs.angles h.ne_greater (h.ne_equals (Nat.succ_ne_zero k)) (k + 1)

/-- Readable pieces can be split behind their first closing angles. -/
theorem Readable.exists_angled {ps : List Piece} (h : Readable ps .endOfText) :
    ∃ k rest, Angled ps k rest := by
  induction ps with
  | nil => exact ⟨0, [], rfl, ⟨[], trivial, rfl, rfl⟩, nofun, nofun⟩
  | cons p ps ih =>
    obtain ⟨k, rest, hangled⟩ := ih h.2
    rcases h.1 with ⟨rfl, hnext⟩ | ⟨hapart, hread⟩
    · refine ⟨k + 1, rest, by rw [hangled.eq_append]; rfl, hangled.glued, hangled.ne_greater, ?_⟩
      intro _
      by_cases hk : k = 0
      · subst hk
        rw [hangled.eq_append] at hnext
        exact hnext
      · exact hangled.ne_equals hk
    · obtain ⟨qs, hqs⟩ := hangled.exists_glued
      refine ⟨0, p :: ps, rfl, ⟨_, hqs.cons hapart hread⟩, ?_, nofun⟩
      refine h.leading_ne_greater ?_
      rintro qs hqs
      obtain ⟨rfl, -⟩ := List.cons.inj hqs
      exact hapart.1 rfl

end Piece

/-! ### Texts -/

/-- What a text has ahead at its start: the words of its pieces. The lexer refuses it at most for
one of its limits. -/
theorem tokenize_of_legible {text : String} {ps : List Piece} (preferences : LexicalPreferences)
    (htext : text.toList = Piece.spelling ps) (hps : Piece.Legible ps .endOfText) :
    (∃ e, (tokenize text preferences).failure = some e ∧ e.kind.isLimit = true) ∨
      (tokenize text preferences).failure = none ∧
        (tokenize text preferences).tokens.map Token.word = Piece.words ps ++ [.stop] :=
  Lexer.runFrom_of_legible [] [] hps rfl htext

/-- What a text has ahead at its start, if a run of closing angles may come out as other words: the
words of its pieces, with each closing angle for itself. -/
theorem tokenize_of_readable {text : String} {ps : List Piece} (preferences : LexicalPreferences)
    (htext : text.toList = Piece.spelling ps) (hps : Piece.Readable ps .endOfText) :
    (∃ e, (tokenize text preferences).failure = some e ∧ e.kind.isLimit = true) ∨
      (tokenize text preferences).failure = none ∧
        ∃ ws, (tokenize text preferences).tokens.map Token.word = ws ++ [.stop] ∧
          ws.flatMap Word.singles = Piece.words ps := by
  obtain ⟨k, rest, hangled⟩ := hps.exists_angled
  obtain ⟨qs, hqs⟩ := hangled.exists_glued
  have hrest : (Lexer.ofText text preferences).rest = Piece.spelling qs := by
    rw [hqs.spelling_eq, ← htext]
    rfl
  rcases Lexer.runFrom_of_legible [] [] hqs.legible rfl hrest with
    hlimit | ⟨hnone, htokens⟩
  · exact .inl hlimit
  · exact .inr ⟨hnone, Piece.words qs, htokens, hqs.words_eq⟩

end JavaSyntax
