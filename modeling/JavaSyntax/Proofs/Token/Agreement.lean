import JavaSyntax.Proofs.Token.Passed
import JavaSyntax.Proofs.Token.Positions

/-!
# Agreement of kind, source and value

The kind of a token fixes its spelling if it has only one, keeps the reserved words apart from
the identifiers, and tells which sort of value the token carries. The automaton, the list of
keywords and the decoders each answer for a part of this. Splitting a token keeps it, so it
also holds of all tokens that a cursor has in its buffer.
-/

namespace JavaSyntax

/-! ### Sorts of values -/

/-- What sort of value a literal has. -/
inductive ValueSort where
  | integer | floating | char | string | bool
deriving DecidableEq, Repr

def LiteralValue.sort : LiteralValue → ValueSort
  | .integer .. => .integer
  | .floating _ => .floating
  | .char _ => .char
  | .string _ => .string
  | .bool _ => .bool

/-- The sort of value that goes with a kind; most kinds go without. -/
def TokenKind.valueSort? : TokenKind → Option ValueSort
  | .intLiteral | .longLiteral => some .integer
  | .floatLiteral | .doubleLiteral => some .floating
  | .charLiteral => some .char
  | .stringLiteral | .textBlock => some .string
  | .trueLiteral | .falseLiteral => some .bool
  | _ => none

namespace Literal

variable {text : List Char} {value : LiteralValue}

/-- Decoding digits as an integer comes to an integer. -/
theorem sort_of_decodeIntegerBody {width : IntegerWidth}
    (h : decodeIntegerBody width text = .ok value) : value.sort = .integer := by
  simp only [decodeIntegerBody, bind, Except.bind] at h
  split at h
  · cases h
  split at h
  · cases h
  split at h
  · cases h
  split at h
  · cases h
    rfl
  · cases h

/-- Decoding an integer literal comes to an integer. -/
theorem sort_of_decodeInteger {width : IntegerWidth}
    (h : decodeInteger width text = .ok value) : value.sort = .integer := by
  have hbody {body : List Char}
      (h : (decodeIntegerBody width body).mapError LiteralFault.invalidNumber = .ok value) :
      value.sort = .integer := by
    cases hdecode : decodeIntegerBody width body with
    | error fault =>
      rw [hdecode] at h
      cases h
    | ok value' =>
      rw [hdecode] at h
      cases h
      exact sort_of_decodeIntegerBody hdecode
  cases width with
  | int => exact hbody h
  | long =>
    unfold decodeInteger at h
    cases hsuffix : withoutSuffix text with
    | error fault =>
      rw [hsuffix] at h
      cases h
    | ok body =>
      rw [hsuffix] at h
      exact hbody h

/-- Decoding a floating literal comes to a floating value. -/
theorem sort_of_decodeFloating {width : FloatWidth}
    (h : decodeFloating width text = .ok value) : value.sort = .floating := by
  unfold decodeFloating at h
  split at h
  · cases h
    rfl
  · cases h

/-- A result that was changed afterwards comes from a result. -/
private theorem exists_of_map_eq_ok {α β : Type} {e : Except LiteralFault α} {f : α → β}
    {b : β} (h : f <$> e = .ok b) : ∃ a, e = .ok a ∧ f a = b := by
  cases e with
  | error fault => cases h
  | ok a =>
    cases h
    exact ⟨a, rfl, rfl⟩

/-- Decoding gives a value of the sort that goes with the kind, and none to other kinds. -/
theorem sort_of_decode {kind : TokenKind} {decoded : Option LiteralValue}
    (h : decode kind text = .ok decoded) : decoded.map LiteralValue.sort = kind.valueSort? := by
  cases kind with
  | intLiteral | longLiteral =>
    obtain ⟨value, hvalue, rfl⟩ := exists_of_map_eq_ok h
    exact congrArg some (sort_of_decodeInteger hvalue)
  | floatLiteral | doubleLiteral =>
    obtain ⟨value, hvalue, rfl⟩ := exists_of_map_eq_ok h
    exact congrArg some (sort_of_decodeFloating hvalue)
  | charLiteral | stringLiteral | textBlock =>
    simp only [decode, bind, Except.bind] at h
    split at h
    · cases h
    · cases h
      rfl
  | _ =>
    cases h
    rfl

end Literal

/-! ### Tokens -/

/-- A word that is classified as an identifier has no other meaning. -/
theorem ne_of_classifyWord {word : String} (h : classifyWord word = .identifier) :
    word ∉ ["true", "false", "null"] ∧ ∀ k : Keyword, word ≠ k.text := by
  unfold classifyWord at h
  split at h
  · cases h
  split at h
  · cases h
  split at h
  · cases h
  rename_i htrue hfalse hnull
  refine ⟨by simp [htrue, hfalse, hnull], ?_⟩
  rintro k rfl
  cases hfind : Keyword.all.find? (·.text == k.text) with
  | none => simpa using List.find?_eq_none.mp hfind k k.mem_all
  | some keyword =>
    rw [hfind] at h
    cases h

namespace Token

/-- The kind, the source and the value of a token agree: the kind is spelt as it must be, an
identifier is no reserved word, and the value is of the sort that the kind asks for. -/
structure Agrees (t : Token) : Prop where
  spelt : t.Spelt
  identifier : t.kind = .identifier →
    t.source ∉ ["true", "false", "null"] ∧ ∀ k : Keyword, t.source ≠ k.text
  value : t.value.map LiteralValue.sort = t.kind.valueSort?

variable {t w : Token} {kind : TokenKind}

/-- The tail of an operator is an operator, without a value and no identifier. -/
private theorem operator_of_afterGreater? {kind rest : TokenKind}
    (h : kind.afterGreater? = some rest) : rest.valueSort? = none ∧ rest ≠ .identifier := by
  cases kind <;> cases h <;> exact ⟨rfl, nofun⟩

/-- The `>` that is split off agrees with itself. -/
theorem agrees_greaterHead (t : Token) : t.greaterHead.Agrees :=
  ⟨t.spelt_greaterHead, nofun, rfl⟩

/-- What remains of a token behind its `>` agrees as the token did. -/
theorem Agrees.greaterTail (h : t.Agrees) (hkind : t.kind.afterGreater? = some kind) :
    (t.greaterTail kind).Agrees := by
  obtain ⟨hvalue, hword⟩ := operator_of_afterGreater? hkind
  exact ⟨h.spelt.greaterTail hkind, fun hkind => absurd hkind hword, hvalue.symm⟩

/-- Parts of a token agree if the token does. -/
theorem PartOf.agrees (h : w.PartOf t) (hw : w.Agrees) : t.Agrees := by
  induction h with
  | whole => exact hw
  | head _ _ _ => exact agrees_greaterHead _
  | tail _ hkind ih => exact ih.greaterTail hkind

end Token

/-- The kind, the source and the value of every delivered token agree. -/
theorem Lexer.agrees_of_lex {l : Lexer} {t : Token} (h : l.lex.result = .ok t) : t.Agrees := by
  refine ⟨spelt_of_lex h, ?_, Literal.sort_of_decode (decode_of_lex h)⟩
  intro hword
  obtain ⟨m, hskips, hends⟩ := exists_skips_ends_lex l
  generalize l.lex = outcome at hends h
  cases hends with
  | finished =>
    cases h
    cases hword
  | stuck | refused | tooLong => cases h
  | @delivered c cs taken rest kind kind' value hrest hscan hclassify =>
    cases h
    have hkind := (classify_eq_ok hclassify).1
    simp only [tokenOf] at hword ⊢
    rw [hkind, refineKind] at hword
    split at hword
    · exact ne_of_classifyWord hword
    · rename_i hother
      exact absurd hword hother

/-- Splitting keeps the agreement. -/
def Cursor.agreement : Cursor.Invariant where
  lexer _ := True
  token := Token.Agrees
  lex _ := trivial
  delivered _ ht := Lexer.agrees_of_lex ht
  parts h hkind := ⟨Token.agrees_greaterHead _, h.greaterTail hkind⟩

/-- The kind, the source and the value of every token agree: of those that the lexer delivers for
any text, in any of its calls, of the parts into which these are split, however often, and so of
all tokens in the buffer of a cursor. -/
theorem tokens_agree (text : String) (preferences : LexicalPreferences) :
    (∀ n w t, ((Lexer.ofText text preferences).after n).lex.result = .ok w → w.PartOf t →
      t.Agrees) ∧
    ∀ c, Cursor.Handled text preferences c → ∀ t ∈ c.buffer, t.Agrees := by
  constructor
  · intro n w t hw hpart
    exact hpart.agrees (Lexer.agrees_of_lex hw)
  · intro c hc t ht
    exact (hc.holds (I := Cursor.agreement) trivial).buffer t ht

/-- An operator that is split twice, after a word and before literals. -/
theorem tokens_agree_sample :
    ((((Cursor.splitGreater (Cursor.advance (Cursor.splitGreater (Cursor.advance
        (.ofText "a >>>= 'b' 1L")).2).2).2).2.buffer.toList.map
          fun t => (t.kind, t.source)) =
      [(.identifier, "a"), (.greater, ">"), (.greater, ">"), (.greaterEqual, ">=")])) ∧
      ∀ t ∈ (Cursor.splitGreater (Cursor.advance (Cursor.splitGreater (Cursor.advance
        (.ofText "a >>>= 'b' 1L")).2).2).2).2.buffer, t.Agrees :=
  ⟨by decide +kernel,
    (tokens_agree "a >>>= 'b' 1L" {}).2 _ (.split (.advance (.split (.advance .start))))⟩

end JavaSyntax
