import JavaSyntax.Proofs.Lexer.Calls

/-!
# Spelling of tokens

A separator, an operator or a reserved word has one spelling, which its kind
determines. The automaton remembers this spelling in its state: a state that leads to
an operator can be reached in one way only.
-/

namespace JavaSyntax

/-! ### Classes and states with one spelling -/

/-- The only character of a class, if it has a single one and operators use it. -/
def CharClass.symbol? : CharClass → Option Char
  | .dot => some '.'
  | .slash => some '/'
  | .star => some '*'
  | .plus => some '+'
  | .minus => some '-'
  | .equals => some '='
  | .greater => some '>'
  | .less => some '<'
  | .bang => some '!'
  | .amp => some '&'
  | .pipe => some '|'
  | .caret => some '^'
  | .percent => some '%'
  | .tilde => some '~'
  | .question => some '?'
  | .colon => some ':'
  | .leftParen => some '('
  | .rightParen => some ')'
  | .leftBrace => some '{'
  | .rightBrace => some '}'
  | .leftBracket => some '['
  | .rightBracket => some ']'
  | .semicolon => some ';'
  | .comma => some ','
  | .at => some '@'
  | _ => none

/-- A class that has a symbol has no other character of use to operators. -/
theorem CharClass.eq_of_symbol? {c d : Char} (h : (ofChar c).symbol? = some d) : c = d := by
  unfold ofChar at h
  split at h
  · unfold ofUnicode at h
    split at h
    · cases h
    split at h <;> cases h
  split at h
  · unfold ofAsciiLetter at h
    split at h <;> cases h
  · unfold ofAsciiSymbol at h
    split at h <;> cases h <;> rfl

/-- What has been read in a state, if there is one way only to get there. -/
def LexState.spelling? : LexState → Option String
  | .slash => some "/"
  | .dot => some "."
  | .twoDots => some ".."
  | .plus => some "+"
  | .minus => some "-"
  | .star => some "*"
  | .percent => some "%"
  | .caret => some "^"
  | .bang => some "!"
  | .equals => some "="
  | .amp => some "&"
  | .pipe => some "|"
  | .less => some "<"
  | .shiftLeft => some "<<"
  | .greater => some ">"
  | .shiftRight => some ">>"
  | .unsignedShiftRight => some ">>>"
  | .colon => some ":"
  | _ => none

/-- What has been read once a character of a class follows a spelling. -/
def extendSpelling (before : Option String) (c : CharClass) : Option String :=
  before.bind fun text => c.symbol?.map text.push

/-- Whether an action agrees with the spellings: what it leads to is spelt as it must be,
after what was read before it. -/
def LexAction.spells (before : Option String) (c : CharClass) : LexAction → Bool
  | .shift s => s.spelling?.isNone || s.spelling? == extendSpelling before c
  | .stop (.token kind) => kind.symbol?.isNone || kind.symbol? == before
  | .take (.token kind) => kind.symbol?.isNone || kind.symbol? == extendSpelling before c
  | _ => true

/-- The first step agrees with the spellings. -/
theorem LexState.spells_first (c : CharClass) : (first c).spells (some "") c = true := by
  cases c <;> decide +kernel

/-- Every further step agrees with the spellings. -/
theorem LexState.spells_next (s : LexState) (c : CharClass) :
    (s.next c).spells s.spelling? c = true := by
  cases s <;> cases c <;> decide +kernel

/-! ### Lexemes -/

/-- A spelling is extended by its last character. -/
theorem eq_push_of_extendSpelling {before : Option String} {c : Char} {text : String}
    (h : extendSpelling before (CharClass.ofChar c) = some text) :
    ∃ read, before = some read ∧ text = read.push c := by
  obtain ⟨read, hread, htext⟩ := Option.bind_eq_some_iff.mp h
  obtain ⟨d, hd, rfl⟩ := Option.map_eq_some_iff.mp htext
  rw [CharClass.eq_of_symbol? hd]
  exact ⟨read, hread, rfl⟩

/-- The characters taken so far are those that the state stands for. -/
def LexState.Spelt (s : LexState) (taken : List Char) : Prop :=
  ∀ text, s.spelling? = some text → String.ofList taken.reverse = text

/-- One more character that was taken comes last. -/
private theorem ofList_reverse_cons (c : Char) (taken : List Char) :
    String.ofList (c :: taken).reverse = (String.ofList taken.reverse).push c := by
  rw [List.reverse_cons, String.ofList_append, ← String.append_singleton]
  rfl

/-- A state that is reached stands for what was taken. -/
theorem LexState.Spelt.shift {s s' : LexState} {taken : List Char} {c : Char}
    (h : s.Spelt taken) (hnext : s.next (CharClass.ofChar c) = .shift s') :
    s'.Spelt (c :: taken) := by
  intro text htext
  have hspells := s.spells_next (CharClass.ofChar c)
  rw [hnext] at hspells
  simp only [LexAction.spells, htext, Option.isNone_some, Bool.false_or, beq_iff_eq] at hspells
  obtain ⟨read, hread, rfl⟩ := eq_push_of_extendSpelling hspells.symm
  rw [ofList_reverse_cons, h read hread]

/-- A lexeme that ends before a character is spelt as its kind is. -/
theorem LexState.Spelt.stop {s : LexState} {taken : List Char} {c : CharClass} {kind : TokenKind}
    {text : String} (h : s.Spelt taken) (hnext : s.next c = .before kind)
    (hsymbol : kind.symbol? = some text) : String.ofList taken.reverse = text := by
  have hspells := s.spells_next c
  rw [hnext] at hspells
  simp only [LexAction.spells, hsymbol, Option.isNone_some, Bool.false_or, beq_iff_eq] at hspells
  exact h text hspells.symm

/-- A lexeme that ends with a character is spelt as its kind is. -/
theorem LexState.Spelt.take {s : LexState} {taken : List Char} {c : Char} {kind : TokenKind}
    {text : String} (h : s.Spelt taken) (hnext : s.next (CharClass.ofChar c) = .after kind)
    (hsymbol : kind.symbol? = some text) : String.ofList (c :: taken).reverse = text := by
  have hspells := s.spells_next (CharClass.ofChar c)
  rw [hnext] at hspells
  simp only [LexAction.spells, hsymbol, Option.isNone_some, Bool.false_or, beq_iff_eq] at hspells
  obtain ⟨read, hread, rfl⟩ := eq_push_of_extendSpelling hspells.symm
  rw [ofList_reverse_cons, h read hread]

/-- A lexeme that a run comes to is spelt as its kind is. -/
theorem Scan.spelling_of_run {s : LexState} {taken cs taken' rest : List Char} {kind : TokenKind}
    {text : String} (hs : s.Spelt taken) (h : run s taken cs = .lexeme (.token kind) taken' rest)
    (hsymbol : kind.symbol? = some text) : String.ofList taken'.reverse = text := by
  fun_induction run s taken cs with
  | case1 s taken k hnext | case7 s taken c cs k hnext =>
    cases h
    exact hs.stop hnext hsymbol
  | case5 s taken c cs next hnext ih => exact ih (hs.shift hnext) h
  | case6 s taken c cs k hnext =>
    cases h
    exact hs.take hnext hsymbol
  | _ => cases h

/-- A lexeme whose kind has one spelling is spelt like that. -/
theorem Scan.spelling_of_start {c : Char} {cs taken rest : List Char} {kind : TokenKind}
    {text : String} (h : start c cs = .lexeme (.token kind) taken rest)
    (hsymbol : kind.symbol? = some text) : String.ofList taken.reverse = text := by
  have hspells := LexState.spells_first (CharClass.ofChar c)
  have hone {text : String} (h : extendSpelling (some "") (CharClass.ofChar c) = some text) :
      String.ofList [c].reverse = text := by
    obtain ⟨read, hread, rfl⟩ := eq_push_of_extendSpelling h
    cases hread
    exact ofList_reverse_cons c []
  unfold start at h
  split at h
  · rename_i s hfirst
    rw [hfirst] at hspells
    refine spelling_of_run ?_ h hsymbol
    intro text htext
    simp only [LexAction.spells, htext, Option.isNone_some, Bool.false_or, beq_iff_eq] at hspells
    exact hone hspells.symm
  · rename_i hfirst
    rw [hfirst] at hspells
    cases h
    simp only [LexAction.spells, hsymbol, Option.isNone_some, Bool.false_or, beq_iff_eq] at hspells
    exact hone hspells.symm
  · cases h
  · cases h

/-! ### Tokens -/

/-- A token is spelt the way its kind demands, if its kind demands one. -/
def Token.Spelt (t : Token) : Prop := ∀ text, t.kind.symbol? = some text → t.source = text

/-- A word that is not an identifier is spelt like its kind. -/
theorem symbol?_classifyWord {word text : String} (h : (classifyWord word).symbol? = some text) :
    word = text := by
  unfold classifyWord at h
  split at h
  · rename_i hword
    cases h
    exact hword
  split at h
  · rename_i hword
    cases h
    exact hword
  split at h
  · rename_i hword
    cases h
    exact hword
  cases hfind : Keyword.all.find? (·.text == word) with
  | none =>
    rw [hfind] at h
    cases h
  | some keyword =>
    rw [hfind] at h
    cases h
    have hfound := List.find?_some hfind
    exact (beq_iff_eq.mp hfound).symm

/-- Every delivered token is spelt the way its kind demands. -/
theorem Lexer.spelt_of_lex {l : Lexer} {t : Token} (h : l.lex.result = .ok t) : t.Spelt := by
  obtain ⟨m, hskips, hends⟩ := exists_skips_ends_lex l
  intro text hsymbol
  generalize l.lex = outcome at hends h
  cases hends with
  | finished =>
    cases h
    cases hsymbol
  | stuck | refused | tooLong => cases h
  | @delivered c cs taken rest kind kind' value hrest hscan hclassify =>
    cases h
    have hkind := (classify_eq_ok hclassify).1
    simp only [tokenOf] at hsymbol ⊢
    rw [hkind, refineKind] at hsymbol
    split at hsymbol
    · exact symbol?_classifyWord hsymbol
    · exact Scan.spelling_of_start hscan hsymbol

/-- The value of a delivered token is the one that its kind gives to its text. -/
theorem Lexer.decode_of_lex {l : Lexer} {t : Token} (h : l.lex.result = .ok t) :
    Literal.decode t.kind t.source.toList = .ok t.value := by
  obtain ⟨m, hskips, hends⟩ := exists_skips_ends_lex l
  generalize l.lex = outcome at hends h
  cases hends with
  | finished =>
    cases h
    rfl
  | stuck | refused | tooLong => cases h
  | delivered hrest hscan hclassify =>
    cases h
    have hdecode := (classify_eq_ok hclassify).2
    simpa only [tokenOf, String.toList_ofList] using hdecode

end JavaSyntax
