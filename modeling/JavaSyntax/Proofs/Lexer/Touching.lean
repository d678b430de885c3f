import JavaSyntax.Proofs.Lexer.Trivia

/-!
# Words that touch

A word that is read before a space need not be read before another word: the automaton goes on
if it can. Whether it can depends on the kind of the word and on the class of the character that
comes next. What a word starts with is known from its kind, so that it is a matter of two kinds
whether two words may touch, except for numbers before a dot.
-/

namespace JavaSyntax

open LexAction

/-! ### Kinds that end before a class -/

namespace CharClass

/-- The characters that names, types and expressions have behind them without a gap. -/
def docks : CharClass → Bool
  | .leftParen | .rightParen | .leftBrace | .rightBrace | .leftBracket | .rightBracket
  | .semicolon | .comma | .dot | .colon | .less | .greater | .plus | .minus => true
  | _ => false

/-- The characters that a name, an annotation or a wildcard starts with. -/
def opensName (c : CharClass) : Bool := c.startsIdentifier || c == .at || c == .question

/-- The characters that a literal other than a word starts with. -/
def opensLiteral : CharClass → Bool
  | .zero | .octalDigit | .digit89 | .dot | .quote | .apostrophe => true
  | _ => false

/-- The characters that do not go on an operator that stands before its operand. -/
def isCalm : CharClass → Bool
  | .plus | .minus | .equals | .greater => false
  | _ => true

end CharClass

namespace TokenKind

variable {kind : TokenKind} {c : CharClass}

/-- Wherever a token of a kind ends before a space, it ends before a character of a class. -/
def EndsBefore (kind : TokenKind) (c : CharClass) : Prop :=
  ∀ s : LexState, s.next .space = .before kind → s.next c = .before kind

/-- Kinds whose tokens end with their last character, whatever comes next. -/
def isFence : TokenKind → Bool
  | .longLiteral | .floatLiteral | .charLiteral | .textBlock | .leftParen | .rightParen
  | .leftBrace | .rightBrace | .leftBracket | .rightBracket | .semicolon | .comma | .ellipsis
  | .at | .colonColon | .tilde | .question | .plusPlus | .minusMinus => true
  | _ => false

/-- Kinds that stand at the end of names, types and expressions, apart from fences. -/
def isEnding : TokenKind → Bool
  | .identifier | .intLiteral | .doubleLiteral | .stringLiteral | .star | .greater | .shiftRight
  | .unsignedShiftRight => true
  | _ => false

/-- A fence ends before every character. -/
theorem endsBefore_of_isFence (h : kind.isFence = true) (c : CharClass) : kind.EndsBefore c := by
  intro s hs
  cases s <;> cases hs <;> cases h

/-- Every token that ends before a space ends before every other blank. -/
theorem endsBefore_of_isBlank (hc : c.isBlank = true) : kind.EndsBefore c :=
  fun _ hs => LexState.next_of_isBlank hs hc

/-- Every token that ends before a space ends at the end of the text. -/
theorem endsBefore_endOfText : kind.EndsBefore .endOfText := by
  intro s hs
  cases s <;> first | exact hs | cases hs

/-- A dot goes on a number, and an angle goes on angles. -/
theorem endsBefore_of_docks (h : kind.isEnding = true) (hc : c.docks = true)
    (hnumber : kind = .intLiteral → c ≠ .dot)
    (hangles : kind = .greater ∨ kind = .shiftRight → c ≠ .greater) : kind.EndsBefore c := by
  intro s hs
  cases s <;> cases hs <;> first | cases h; done | skip
  all_goals
    cases c <;> first
      | rfl
      | exact absurd rfl (hnumber rfl)
      | exact absurd rfl (hangles (.inl rfl))
      | exact absurd rfl (hangles (.inr rfl))
      | cases hc

/-- What stands before names without a gap, and is no fence: a dot, a minus sign and angles. -/
def precedesNames : TokenKind → Bool
  | .dot | .minus | .less | .greater | .shiftRight | .unsignedShiftRight => true
  | _ => false

/-- A dot, a minus sign and the angles end before a character that a name starts with. -/
theorem endsBefore_of_opensName (h : kind.precedesNames = true) (hc : c.opensName = true) :
    kind.EndsBefore c := by
  intro s hs
  cases s <;> cases hs <;> first | cases h; done | skip
  all_goals cases c <;> first | rfl | cases hc

/-- A dot may have type arguments or a star behind it. -/
theorem dot_endsBefore (hc : c ∈ [.less, .star]) : EndsBefore .dot c := by
  intro s hs
  simp only [List.mem_cons, List.not_mem_nil, or_false] at hc
  cases s <;> cases hs
  rcases hc with rfl | rfl <;> rfl

/-- Behind the first of two angles are type arguments, if there are any. -/
theorem less_endsBefore (hc : c ∈ [.comma, .greater, .leftBracket]) : EndsBefore .less c := by
  intro s hs
  simp only [List.mem_cons, List.not_mem_nil, or_false] at hc
  cases s <;> cases hs
  rcases hc with rfl | rfl | rfl <;> rfl

/-- The operators before an operand that another character may go on. -/
def precedesOperands : TokenKind → Bool
  | .plus | .minus | .bang => true
  | _ => false

/-- A prefix operator ends before a character that does not go on it. -/
theorem endsBefore_of_isCalm (h : kind.precedesOperands = true) (hc : c.isCalm = true) :
    kind.EndsBefore c := by
  intro s hs
  cases s <;> cases hs <;> first | cases h; done | skip
  all_goals cases c <;> first | rfl | cases hc

/-- A sign may have another sign behind it. -/
theorem sign_endsBefore (h : (kind, c) ∈ [(.plus, .minus), (.minus, .plus), (.bang, .plus),
    (.bang, .minus)]) : kind.EndsBefore c := by
  intro s hs
  simp only [List.mem_cons, List.not_mem_nil, or_false, Prod.mk.injEq] at h
  rcases h with ⟨rfl, rfl⟩ | ⟨rfl, rfl⟩ | ⟨rfl, rfl⟩ | ⟨rfl, rfl⟩ <;> cases s <;> cases hs <;> rfl

end TokenKind

namespace Scan

variable {s : LexState} {c : Char} {cs : List Char} {kind : TokenKind} {next : CharClass}

/-- What is read before a space is read before every class that its kind ends before. -/
theorem kindFrom_of_endsBefore (h : kindFrom s cs .space = some (.token kind))
    (hnext : kind.EndsBefore next) : kindFrom s cs next = some (.token kind) := by
  induction cs generalizing s with
  | nil =>
    rw [kindFrom] at h ⊢
    split at h
    · rename_i k hspace
      obtain rfl := Option.some.inj h
      rw [hnext s hspace]
    · cases h
  | cons c cs ih =>
    rw [kindFrom] at h ⊢
    split at h
    · exact ih h
    · exact h
    · cases h

/-- A word that is read before a space is read before any class that its kind ends before. -/
theorem kindOf_of_endsBefore (h : kindOf cs .space = some (.token kind))
    (hnext : kind.EndsBefore next) : kindOf cs next = some (.token kind) := by
  cases cs with
  | nil => cases h
  | cons c cs =>
    rw [kindOf] at h ⊢
    split at h
    · exact kindFrom_of_endsBefore h hnext
    · exact h
    · cases h

end Scan

/-! ### What words start with -/

namespace LexAction

/-- An action goes on in states with a property, or ends a token of a kind with another one. -/
def LeadsTo (P : LexState → Bool) (Q : TokenKind → Bool) : LexAction → Bool
  | shift s => P s
  | stop (.token kind) | take (.token kind) => Q kind
  | _ => true

end LexAction

namespace LexState

/-- The states in which the rest of a number, a character or a string is read. -/
def isInLiteral : LexState → Bool
  | zero | octal | decimal | hexMark | hex | hexFraction | binaryMark | binary | dot | twoDots
  | fraction | exponentMark | exponentSign | exponent | stringOpen | stringEmpty | string
  | stringEscape | textBlockOpen | textBlock | textBlockQuote | textBlockTwoQuotes
  | textBlockEscape | charOpen | char | charEscape => true
  | _ => false

/-- Names are read in a state of their own. -/
theorem leadsTo_of_ne_identifier (s : LexState) (c : CharClass) (hs : (s != .identifier) = true) :
    (s.next c).LeadsTo (· != .identifier) (· != .identifier) = true := by
  cases s <;> cases c <;> first | rfl | cases hs

end LexState

namespace TokenKind

/-- The kinds of literals that are not words. -/
def isWritten : TokenKind → Bool
  | .intLiteral | .longLiteral | .floatLiteral | .doubleLiteral | .charLiteral
  | .stringLiteral | .textBlock => true
  | _ => false

end TokenKind

/-- Outside of literals the automaton stays outside, and ends no token of a written literal. -/
theorem LexState.leadsTo_of_not_isInLiteral (s : LexState) (c : CharClass)
    (hs : (!s.isInLiteral) = true) :
    (s.next c).LeadsTo (!·.isInLiteral) (!·.isWritten) = true := by
  cases s <;> cases c <;> first | rfl | cases hs

namespace Scan

variable {s : LexState} {c : Char} {cs : List Char} {kind : TokenKind} {next : CharClass}
  {P : LexState → Bool} {Q : TokenKind → Bool}

/-- What holds of the states on the way holds of the kind that they end with. -/
theorem kindFrom_of_leadsTo (hP : ∀ s c, P s = true → (LexState.next s c).LeadsTo P Q = true)
    (hs : P s = true) (h : kindFrom s cs next = some (.token kind)) : Q kind = true := by
  induction cs generalizing s with
  | nil =>
    have hstep := hP s next hs
    rw [kindFrom] at h
    split at h
    · rename_i hnext
      cases h
      rwa [hnext] at hstep
    · cases h
  | cons c cs ih =>
    have hstep := hP s (.ofChar c) hs
    rw [kindFrom] at h
    split at h
    · rename_i hnext
      rw [hnext] at hstep
      exact ih hstep h
    · rename_i hnext
      split at h
      · cases h
        rwa [hnext] at hstep
      · cases h
    · cases h

/-- A property of states that every step keeps, or hands over to the kind, holds of the kind that
is found, if the first step agrees. -/
theorem kindOf_of_leadsTo (hP : ∀ s c, P s = true → (LexState.next s c).LeadsTo P Q = true)
    (hfirst : (LexState.first (.ofChar c)).LeadsTo P Q = true)
    (h : kindOf (c :: cs) next = some (.token kind)) : Q kind = true := by
  rw [kindOf] at h
  split at h
  · rename_i hnext
    rw [hnext] at hfirst
    exact kindFrom_of_leadsTo hP hfirst h
  · rename_i hnext
    split at h
    · cases h
      rwa [hnext] at hfirst
    · cases h
  · cases h

/-- A name starts with a character that identifiers start with. -/
theorem startsIdentifier_of_kindOf (h : kindOf (c :: cs) next = some (.token .identifier)) :
    (CharClass.ofChar c).startsIdentifier = true := by
  refine Bool.of_not_eq_false fun hstart => ?_
  have hfirst :
      (LexState.first (.ofChar c)).LeadsTo (· != .identifier) (· != .identifier) = true := by
    generalize CharClass.ofChar c = d at hstart
    cases d <;> first | rfl | cases hstart
  exact absurd (kindOf_of_leadsTo LexState.leadsTo_of_ne_identifier hfirst h) (by decide)

/-- The token of a written literal starts with a character that opens literals. -/
theorem opensLiteral_of_kindOf (h : kindOf (c :: cs) next = some (.token kind))
    (hkind : kind.isWritten = true) : (CharClass.ofChar c).opensLiteral = true := by
  refine Bool.of_not_eq_false fun hstart => ?_
  have hfirst : (LexState.first (.ofChar c)).LeadsTo (!·.isInLiteral) (!·.isWritten) = true := by
    generalize CharClass.ofChar c = d at hstart
    cases d <;> first | rfl | cases hstart
  have hnot := kindOf_of_leadsTo LexState.leadsTo_of_not_isInLiteral hfirst h
  rw [hkind] at hnot
  cases hnot

/-! ### Binary numbers -/

/-- A binary number ends before a dot. -/
theorem kindFrom_binary_dot (hs : s = .binaryMark ∨ s = .binary)
    (h : kindFrom s cs .space = some (.token kind)) : kindFrom s cs .dot = some (.token kind) := by
  induction cs generalizing s with
  | nil =>
    rcases hs with rfl | rfl
    · cases h
    · exact h
  | cons c cs ih =>
    rw [kindFrom] at h ⊢
    generalize CharClass.ofChar c = d at h ⊢
    have hstays : ∀ s', s.next d = .shift s' → s' = .binary := by
      intro s' hs'
      rcases hs with rfl | rfl <;> cases d <;> cases hs' <;> rfl
    split at h
    · rename_i s' hnext
      exact ih (.inr (hstays s' hnext)) h
    · exact h
    · cases h

/-- A binary number ends before a dot, since none of its digits can have a fraction behind it. -/
theorem kindOf_dot_of_binary {letter : Char} (hletter : CharClass.ofChar letter = .letterB)
    (h : kindOf ('0' :: letter :: cs) .space = some (.token kind)) :
    kindOf ('0' :: letter :: cs) .dot = some (.token kind) := by
  have hzero (next : CharClass) :
      kindOf ('0' :: letter :: cs) next = kindFrom .binaryMark cs next := by
    rw [kindOf, show LexState.first (.ofChar '0') = .shift .zero from rfl]
    dsimp only
    rw [kindFrom, hletter]
    rfl
  rw [hzero] at h ⊢
  exact kindFrom_binary_dot (.inl rfl) h

end Scan

/-- Whether a word is a number that goes on with a dot behind it: an `int` that is not binary. -/
def isOpenNumber (kind : TokenKind) (text : String) : Bool :=
  kind == .intLiteral && !([['0', 'b'], ['0', 'B']].contains (text.toList.take 2))

/-- An `int` that is not open ends before a dot as it does before a space. -/
theorem Scan.kindOf_dot_of_not_isOpenNumber {text : String} {kind : TokenKind}
    (h : kindOf text.toList .space = some (.token kind)) (hkind : kind = .intLiteral)
    (hopen : isOpenNumber kind text = false) : kindOf text.toList .dot = some (.token kind) := by
  rw [hkind] at hopen
  simp only [isOpenNumber, beq_self_eq_true, Bool.true_and, Bool.not_eq_false',
    List.contains_iff_mem, List.mem_cons, List.not_mem_nil, or_false] at hopen
  rw [← List.take_append_drop 2 text.toList] at h ⊢
  rcases hopen with hopen | hopen <;> rw [hopen] at h ⊢ <;> exact kindOf_dot_of_binary rfl h

/-! ### Kinds that may touch -/

namespace TokenKind

variable {kind next : TokenKind} {c : CharClass}

/-- The kind that the automaton finds for a word, before words are looked up. -/
def scanned : TokenKind → TokenKind
  | .keyword _ | .trueLiteral | .falseLiteral | .nullLiteral => .identifier
  | kind => kind

/-- However a word is classified, it was found as an identifier. -/
@[simp] theorem scanned_classifyWord (word : String) :
    (classifyWord word).scanned = .identifier := by
  rcases classifyWord_cases word with hword | ⟨keyword, hword⟩
  · simp only [List.mem_cons, List.not_mem_nil, or_false] at hword
    rcases hword with hword | hword | hword | hword <;> rw [hword] <;> rfl
  · rw [hword]
    rfl

end TokenKind

/-- The automaton finds identifiers only, and words are looked up afterwards. -/
theorem LexState.leadsTo_scanned (s : LexState) (c : CharClass) :
    (s.next c).LeadsTo (fun _ => true) (fun kind => kind.scanned == kind) = true := by
  cases s <;> cases c <;> rfl

namespace Scan

variable {cs : List Char} {kind : TokenKind} {next : CharClass}

/-- What the automaton finds is a kind as it is before words are looked up. -/
theorem scanned_of_kindOf (h : kindOf cs next = some (.token kind)) : kind.scanned = kind := by
  cases cs with
  | nil => cases h
  | cons c cs =>
    have hfirst : (LexState.first (.ofChar c)).LeadsTo (fun _ => true)
        (fun kind => kind.scanned == kind) = true := by
      generalize CharClass.ofChar c = d
      cases d <;> rfl
    exact eq_of_beq (kindOf_of_leadsTo (Q := fun kind => kind.scanned == kind)
      (fun s c _ => s.leadsTo_scanned c) hfirst h)

/-- No token ends with a line feed. -/
theorem kindFrom_concat_lineFeed (s : LexState) (cs : List Char) :
    kindFrom s (cs ++ ['\n']) .space ≠ some (.token kind) := by
  induction cs generalizing s with
  | nil =>
    intro h
    cases s <;> cases h
  | cons c cs ih =>
    rw [List.cons_append, kindFrom]
    split
    · exact ih _
    · simp
    · exact Option.some_ne_none _ ∘ Eq.symm

/-- No token ends with a line feed. -/
theorem getLast?_ne_lineFeed (h : kindOf cs .space = some (.token kind)) :
    cs.getLast? ≠ some '\n' := by
  intro hlast
  obtain ⟨front, rfl⟩ := List.getLast?_eq_some_iff.mp hlast
  cases front with
  | nil => cases h
  | cons c front =>
    rw [List.cons_append, kindOf] at h
    split at h
    · exact kindFrom_concat_lineFeed _ _ h
    · simp at h
    · cases h

end Scan

namespace TokenKind

variable {kind next : TokenKind} {c : CharClass}

/-- The classes of the characters that a word of a kind may start with. -/
def openers (kind : TokenKind) : List CharClass :=
  if kind.scanned = .identifier then
    [.hexLetter, .letterB, .letterD, .letterE, .letterF, .letterL, .letterX, .letterP,
      .otherLetter, .underscore, .dollar]
  else if kind.isWritten then [.zero, .octalDigit, .digit89, .dot, .quote, .apostrophe]
  else (kind.symbol?.bind (·.toList.head?)).toList.map CharClass.ofChar

/-- A word of the one kind ends before every word of the other, except for a number before a
dot. -/
def Suits (kind next : TokenKind) : Prop :=
  ∀ c ∈ next.openers, kind = .intLiteral ∧ c = .dot ∨ kind.scanned.EndsBefore c

/-- The kinds that names, types and expressions have behind them without a gap. -/
def docks : TokenKind → Bool
  | .leftParen | .rightParen | .leftBrace | .rightBrace | .leftBracket | .rightBracket
  | .semicolon | .comma | .dot | .ellipsis | .colon | .colonColon | .less | .greater
  | .minus | .plusPlus | .minusMinus => true
  | _ => false

/-- The kinds of names, annotations and wildcards. Keywords count as names. -/
def opensName (kind : TokenKind) : Bool :=
  kind.scanned == .identifier || kind == .at || kind == .question

/-- The kinds that do not go on an operator that stands before them. -/
def isCalm : TokenKind → Bool
  | .plus | .plusPlus | .plusAssign | .minus | .minusMinus | .minusAssign | .arrow | .assign
  | .equal | .greater | .greaterEqual | .shiftRight | .shiftRightAssign | .unsignedShiftRight
  | .unsignedShiftRightAssign => false
  | _ => true

/-- A kind that docks starts with a character that docks, and only `>` starts with `>`. -/
theorem docks_of_mem_openers (h : kind.docks = true) (hc : c ∈ kind.openers) :
    c.docks = true ∧ (c = .greater → kind = .greater) := by
  revert c
  cases kind <;> first | cases h; done | decide

/-- Names and words start with a character that starts identifiers. -/
theorem startsIdentifier_of_mem_openers (h : kind.scanned = .identifier) (hc : c ∈ kind.openers) :
    c.startsIdentifier = true := by
  rw [openers, if_pos h] at hc
  revert c
  decide

/-- A kind that opens names starts with a character that does so. -/
theorem opensName_of_mem_openers (h : kind.opensName = true) (hc : c ∈ kind.openers) :
    c.opensName = true := by
  simp only [opensName, Bool.or_eq_true, beq_iff_eq] at h
  rcases h with (h | rfl) | rfl
  · rw [CharClass.opensName, startsIdentifier_of_mem_openers h hc, Bool.true_or, Bool.true_or]
  · revert c
    decide
  · revert c
    decide

/-- A calm kind starts with a calm character. -/
theorem isCalm_of_mem_openers (h : kind.isCalm = true) (hc : c ∈ kind.openers) :
    c.isCalm = true := by
  by_cases hname : kind.scanned = .identifier
  · have hstart := startsIdentifier_of_mem_openers hname hc
    cases c <;> first | rfl | cases hstart
  · revert c
    cases kind <;> first | cases h; done | exact absurd rfl hname | decide

/-- An ending suits all that docks, unless closing angles would grow. -/
theorem suits_of_docks (h : kind.scanned.isEnding = true) (hnext : next.docks = true)
    (hangles : kind = .greater ∨ kind = .shiftRight → next ≠ .greater) : kind.Suits next := by
  intro c hc
  obtain ⟨hdocks, hgreater⟩ := docks_of_mem_openers hnext hc
  by_cases hnumber : kind = .intLiteral ∧ c = .dot
  · exact .inl hnumber
  have hsame : kind.scanned ≠ .identifier → kind.scanned = kind := by
    cases kind <;> first | exact fun _ => rfl | exact absurd rfl
  refine .inr (endsBefore_of_docks h hdocks (fun hint hdot => ?_) fun hangle hc => ?_)
  · exact hnumber ⟨(hsame (by rw [hint]; decide)).symm.trans hint, hdot⟩
  · have hkind := hsame (by rcases hangle with hangle | hangle <;> rw [hangle] <;> decide)
    rw [hkind] at hangle
    exact hangles hangle (hgreater hc)

/-- What precedes names suits all that opens names. -/
theorem suits_of_opensName (h : kind.precedesNames = true) (hnext : next.opensName = true) :
    kind.Suits next := by
  intro c hc
  have hsame : kind.scanned = kind := by cases kind <;> first | rfl | cases h
  rw [hsame]
  exact .inr (endsBefore_of_opensName h (opensName_of_mem_openers hnext hc))

/-- A fence suits every kind. -/
theorem suits_of_isFence (h : kind.isFence = true) : kind.Suits next := by
  intro c _
  have hsame : kind.scanned = kind := by cases kind <;> first | rfl | cases h
  rw [hsame]
  exact .inr (endsBefore_of_isFence h c)

/-- Whether a word of a kind may have one of another kind behind it without a gap. Closing
angles may, although they are read as one then. -/
def mayTouch (kind next : TokenKind) : Bool :=
  kind.isFence ||
    kind.scanned.isEnding && kind != .shiftRight && kind != .unsignedShiftRight && next.docks ||
    kind.precedesNames && next.opensName || kind.precedesOperands && next.isCalm ||
    [(.dot, .less), (.dot, .star), (.less, .greater), (.less, .comma), (.less, .leftBracket),
      (.plus, .minus), (.plus, .minusMinus), (.minus, .plus), (.minus, .plusPlus), (.bang, .plus),
      (.bang, .plusPlus), (.bang, .minus), (.bang, .minusMinus)].contains (kind, next)

/-- Kinds that may touch suit each other, unless both are `>`. -/
theorem suits_of_mayTouch (h : kind.mayTouch next = true)
    (hangles : kind = .greater → next ≠ .greater) : kind.Suits next := by
  simp only [mayTouch, Bool.or_eq_true, Bool.and_eq_true, bne_iff_ne, List.contains_iff_mem] at h
  rcases h with (((h | ⟨⟨⟨h, hshift⟩, -⟩, hnext⟩) | ⟨h, hnext⟩) | ⟨h, hnext⟩) | h
  · exact suits_of_isFence h
  · exact suits_of_docks h hnext fun hangle => hangles (hangle.resolve_right hshift)
  · exact suits_of_opensName h hnext
  · intro c hc
    have hsame : kind.scanned = kind := by cases kind <;> first | rfl | cases h
    rw [hsame]
    exact .inr (endsBefore_of_isCalm h (isCalm_of_mem_openers hnext hc))
  · intro c hc
    simp only [List.mem_cons, List.not_mem_nil, or_false, Prod.mk.injEq] at h
    right
    rcases h with ⟨rfl, rfl⟩ | ⟨rfl, rfl⟩ | ⟨rfl, rfl⟩ | ⟨rfl, rfl⟩ | ⟨rfl, rfl⟩ | ⟨rfl, rfl⟩ |
      ⟨rfl, rfl⟩ | ⟨rfl, rfl⟩ | ⟨rfl, rfl⟩ | ⟨rfl, rfl⟩ | ⟨rfl, rfl⟩ | ⟨rfl, rfl⟩ | ⟨rfl, rfl⟩ <;>
      rw [List.eq_of_mem_singleton hc] <;>
      first
        | exact dot_endsBefore (by decide)
        | exact less_endsBefore (by decide)
        | exact sign_endsBefore (by decide)

/-- What may touch one closing angle may touch more of them, if it is no angle itself. -/
theorem suits_of_mayTouch_greater (h : mayTouch .greater next = true)
    (hkind : kind = .shiftRight ∨ kind = .unsignedShiftRight)
    (hangle : kind = .shiftRight → next ≠ .greater) : kind.Suits next := by
  have hnext : next.docks = true ∨ next.opensName = true := by
    simpa [mayTouch, isFence, isEnding, precedesNames, precedesOperands, scanned] using h
  rcases hnext with hnext | hnext
  · refine suits_of_docks (by rcases hkind with rfl | rfl <;> rfl) hnext fun hor => ?_
    refine hangle (hkind.resolve_right ?_)
    rintro rfl
    rcases hor with hor | hor <;> cases hor
  · exact suits_of_opensName (by rcases hkind with rfl | rfl <;> rfl) hnext

end TokenKind

/-! ### Words that were read -/

/-- A word that was a token of some text. -/
structure IsWord (kind : TokenKind) (text : String) : Prop where
  ne_endOfInput : kind ≠ .endOfInput
  kindOf_eq : Scan.kindOf text.toList .space = some (.token kind.scanned)
  spelt : ∀ symbol, kind.symbol? = some symbol → text = symbol

namespace IsWord

variable {kind next : TokenKind} {text more : String}

/-- A word that was a token is not empty. -/
theorem exists_cons (h : IsWord kind text) : ∃ c cs, text.toList = c :: cs := by
  cases hcs : text.toList with
  | nil =>
    have hkind := h.kindOf_eq
    rw [hcs] at hkind
    cases hkind
  | cons c cs => exact ⟨c, cs, rfl⟩

/-- A word ends with a character of its own, which is no line feed. -/
theorem exists_getLast? (h : IsWord kind text) :
    ∃ c, text.toList.getLast? = some c ∧ c ≠ '\n' := by
  obtain ⟨c, cs, hcs⟩ := h.exists_cons
  have hlast := List.getLast?_eq_some_getLast (l := text.toList) (by simp [hcs])
  refine ⟨_, hlast, fun hfeed => ?_⟩
  rw [hfeed] at hlast
  exact Scan.getLast?_ne_lineFeed h.kindOf_eq hlast

/-- What a word starts with is known from its kind. -/
theorem mem_openers (h : IsWord kind text) {c : Char} {cs : List Char}
    (hcs : text.toList = c :: cs) : CharClass.ofChar c ∈ kind.openers := by
  have hkind := h.kindOf_eq
  rw [hcs] at hkind
  unfold TokenKind.openers
  split
  · rename_i hname
    rw [hname] at hkind
    have hstart := Scan.startsIdentifier_of_kindOf hkind
    generalize CharClass.ofChar c = d at hstart
    cases d <;> first | cases hstart; done | decide
  rename_i hname
  have hsame : kind.scanned = kind := by
    cases kind <;> first | rfl | exact absurd rfl hname
  rw [hsame] at hkind
  split
  · rename_i hwritten
    have hstart := Scan.opensLiteral_of_kindOf hkind hwritten
    generalize CharClass.ofChar c = d at hstart
    cases d <;> first | cases hstart; done | decide
  · rename_i hwritten
    cases hsymbol : kind.symbol? with
    | none =>
      cases kind <;> first
        | cases hsymbol; done
        | exact absurd rfl hname
        | exact absurd rfl hwritten
        | exact absurd rfl h.ne_endOfInput
    | some symbol =>
      obtain rfl := h.spelt symbol hsymbol
      simp [hcs]

/-- A word is read before a word that it suits as before a space, unless it is a number that a
dot goes on. -/
theorem kindOf_head (h : IsWord kind text) (h' : IsWord next more) (hsuits : kind.Suits next)
    (hopen : isOpenNumber kind text = true → more.toList.head? ≠ some '.') :
    Scan.kindOf text.toList (.ofNext more.toList.head?) = Scan.kindOf text.toList .space := by
  obtain ⟨c, cs, hcs⟩ := h'.exists_cons
  have hc : CharClass.ofNext more.toList.head? = .ofChar c := by
    rw [hcs]
    rfl
  rw [hc]
  rcases hsuits _ (h'.mem_openers hcs) with ⟨hint, hdot⟩ | hends
  · have hchar : c = '.' := CharClass.eq_of_symbol? (by rw [hdot]; rfl)
    have hclosed : isOpenNumber kind text = false := by
      refine Bool.eq_false_iff.mpr fun hnumber => hopen hnumber ?_
      rw [hcs, hchar]
      rfl
    have hkind := h.kindOf_eq
    rw [hdot, Scan.kindOf_dot_of_not_isOpenNumber hkind (by rw [hint]; rfl)
      (by rw [hint] at hclosed ⊢; exact hclosed), hkind]
  · rw [Scan.kindOf_of_endsBefore h.kindOf_eq hends, h.kindOf_eq]

end IsWord

end JavaSyntax
