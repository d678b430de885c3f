import JavaSyntax.Proofs.FrontEnd.Fidelity
import JavaSyntax.Proofs.Grammar.DeclarationRules
import JavaSyntax.Proofs.Lexer.Decimals
import JavaSyntax.Proofs.Lexer.Integers
import Mathlib.Algebra.Group.Int.Defs

/-!
# The rules that parsed trees keep

Whatever a text is parsed as, no node of the tree has a shape that is left over from its form,
integers are in the range of their types, and the names of types are none of the restricted
ones. All of this was shown for the productions that make nodes; what is left is to put it in
terms of the whole tree. There is one gap: a class literal takes its type from an expression,
without a look at the name.
-/

namespace JavaSyntax

/-! ### Integers -/

namespace IntegerWidth

/-- The type of a literal in a tree. -/
def literalKind : IntegerWidth → LiteralKind
  | int => .int
  | long => .long

/-- Only tokens of its own kind make literals of an integer type. -/
theorem ofToken?_eq_literalKind {w : IntegerWidth} {kind : TokenKind}
    (h : LiteralKind.ofToken? kind = some w.literalKind) : kind = w.kind := by
  cases w <;> cases kind <;> first | rfl | cases h

/-- Numbers of so many bits with a sign are in the range of the type. -/
theorem signed_mem_range (w : IntegerWidth) (m : Nat) :
    -2 ^ (w.bits - 1) ≤ w.signed m ∧ w.signed m ≤ 2 ^ (w.bits - 1) - 1 :=
  ⟨BitVec.le_toInt _, Int.le_sub_one_of_lt BitVec.toInt_lt⟩

end IntegerWidth

namespace LiteralText

variable {l : LiteralText} {w : IntegerWidth}

/-- The value of an integer literal is in the range of its type. -/
def InRange (l : LiteralText) : Prop :=
  match l.kind with
  | .int => ∃ v radix, l.value = some (.integer v radix) ∧ -2 ^ 31 ≤ v ∧ v ≤ 2 ^ 31 - 1
  | .long => ∃ v radix, l.value = some (.integer v radix) ∧ -2 ^ 63 ≤ v ∧ v ≤ 2 ^ 63 - 1
  | _ => True

/-- The decimal digits of an integer literal denote a number which is out of range, but not its
opposite. -/
def DenotesBound (l : LiteralText) : Prop :=
  l.kind = .int ∧ IntegerLiteral .int .decimal l.text.toList (2 ^ 31) ∨
    l.kind = .long ∧ IntegerLiteral .long .decimal l.text.toList (2 ^ 63)

/-- The value of a genuine integer literal is what its text is decoded to. -/
theorem Genuine.decode_eq (h : l.Genuine) (hkind : l.kind = w.literalKind) :
    Literal.decode w.kind l.text.toList = .ok l.value := by
  obtain ⟨kind, hof, hdecode⟩ := h
  rw [hkind] at hof
  rw [← IntegerWidth.ofToken?_eq_literalKind hof]
  exact hdecode

/-- An integer literal has a number as its value. -/
theorem Genuine.exists_value_eq (h : l.Genuine) (hkind : l.kind = w.literalKind) :
    ∃ m radix, l.value = some (.integer (w.signed m) radix) := by
  have hvalue {body : List Char} {value : Option LiteralValue}
      (h : some <$> ((decodeIntegerBody w body).mapError LiteralFault.invalidNumber) = .ok value) :
      ∃ m radix, value = some (.integer (w.signed m) radix) := by
    cases hbody : decodeIntegerBody w body with
    | error =>
      rw [hbody] at h
      cases h
    | ok integer =>
      obtain ⟨radix, m, -, -, rfl⟩ := exists_numeral_of_decodeIntegerBody hbody
      rw [hbody] at h
      cases h
      exact ⟨m, radix, rfl⟩
  have hdecode := h.decode_eq hkind
  cases w with
  | int => exact hvalue hdecode
  | long =>
    change some <$> (Literal.withoutSuffix l.text.toList >>= fun body =>
      (decodeIntegerBody .long body).mapError _) = _ at hdecode
    cases hsuffix : Literal.withoutSuffix l.text.toList with
    | error =>
      rw [hsuffix] at hdecode
      cases hdecode
    | ok body =>
      rw [hsuffix] at hdecode
      exact hvalue hdecode

/-- A genuine integer literal is in the range of its type, for the decoder refuses all others. -/
theorem Genuine.inRange (h : l.Genuine) : l.InRange := by
  unfold InRange
  split
  · rename_i hkind
    obtain ⟨m, radix, hvalue⟩ := h.exists_value_eq (w := .int) hkind
    exact ⟨_, radix, hvalue, IntegerWidth.int.signed_mem_range m⟩
  · rename_i hkind
    obtain ⟨m, radix, hvalue⟩ := h.exists_value_eq (w := .long) hkind
    exact ⟨_, radix, hvalue, IntegerWidth.long.signed_mem_range m⟩
  · trivial

/-- A literal that denotes the opposite of the least number needs a minus sign. -/
theorem Genuine.needsMinus_of_denotesBound (h : l.Genuine) (hbound : l.DenotesBound) :
    l.needsMinus = true := by
  rcases hbound with ⟨hkind, hliteral⟩ | ⟨hkind, hliteral⟩
  · have hdecode := h.decode_eq (w := .int) hkind
    rw [hliteral.decode_eq] at hdecode
    rw [needsMinus, hkind, ← Except.ok.inj hdecode]
    rfl
  · have hdecode := h.decode_eq (w := .long) hkind
    rw [hliteral.decode_eq] at hdecode
    rw [needsMinus, hkind, ← Except.ok.inj hdecode]
    rfl

end LiteralText

/-! ### Whole trees -/

open Work JavaSyntax.Parser

/-- The outermost node of every mode may stand on its own. -/
theorem ParseMode.makes_root (mode : ParseMode) (x : Tokenized) : Makes x mode.root Fine := by
  cases mode with
  | compilationUnit => exact inferInstanceAs (Makes x grammar.compilationUnit Fine)
  | statement => exact inferInstanceAs (Makes x grammar.statement Fine)
  | expression => exact inferInstanceAs (Makes x grammar.expression Fine)
  | type => exact inferInstanceAs (Makes x grammar.type Fine)

namespace FrontEnd

variable {text : String} {mode : ParseMode} {lexical : LexicalPreferences}
  {preferences : SyntaxPreferences}

/-- The outermost node of a parsed tree may stand anywhere. -/
theorem plain_of_parse {n : Node mode.form}
    (h : (parse text mode lexical preferences).evaluate = .ok n) : Part.Plain ⟨mode.form, n⟩ := by
  obtain ⟨x, s, s', -, -, hs, -, hrun⟩ := exists_run h
  obtain ⟨a, s₁, hok, hrest⟩ := bind_eq_ok hrun
  obtain ⟨_, s₂, -, hpure⟩ := bind_eq_ok hrest
  cases hpure
  obtain ⟨-, -, hfine⟩ := (mode.makes_root x).run hs hok
  exact hfine.plain

/-- Whatever a text is parsed as, all nodes of the tree are well-formed, and wildcards stand
nowhere but in lists of type arguments. -/
theorem parse_nodes_wellFormed {n : Node mode.form}
    (h : (parse text mode lexical preferences).evaluate = .ok n) :
    n.inner.isWildcard = false ∧
      ∀ p, Part.Within p ⟨mode.form, n⟩ →
        p.node.inner.WellFormed ∧
        ∀ q ∈ p.node.inner.withoutTypeArguments.parts, q.node.inner.isWildcard = false := by
  have hplain := plain_of_parse h
  refine ⟨hplain.isWildcard_eq, fun p hp => ?_⟩
  have hregular := hplain.kept p hp
  exact ⟨hregular.wellFormed, hregular.argument⟩

/-- A wildcard is found among the type arguments of an element, which is no array itself. -/
theorem parse_nodes_wellFormed_around_wildcard :
    ∃ (n : Node .type) (p q : Part), (parse "A<?>[]" .type).evaluate = .ok n ∧
      n.inner.isArrayType = true ∧ n.inner.WellFormed ∧ p ∈ Part.children ⟨.type, n⟩ ∧
      q ∈ p.children ∧ q.node.inner.isWildcard = true ∧
      q ∉ p.node.inner.withoutTypeArguments.parts := by
  have hview : (parse "A<?>[]" .type).evaluate.toOption.map (fun n =>
      (n.inner.isArrayType, (Part.children ⟨.type, n⟩).map fun p =>
        p.children.map (·.node.inner.isWildcard))) = some (true, [[true]]) := by decide +kernel
  obtain ⟨n, hparse, hn⟩ := @exists_parse_of_view "A<?>[]" .type _ _ _ hview
  obtain ⟨harray, hchildren⟩ := Prod.ext_iff.mp hn
  obtain ⟨p, hp, hbelow⟩ := List.map_eq_singleton_iff.mp hchildren
  obtain ⟨q, hq, hwildcard⟩ := List.map_eq_singleton_iff.mp hbelow
  obtain ⟨-, hall⟩ := parse_nodes_wellFormed hparse
  have hmem : p ∈ Part.children ⟨.type, n⟩ := by simp [hp]
  refine ⟨n, p, q, hparse, harray, (hall _ (.refl _)).1, hmem, by simp [hq], hwildcard,
    fun hexposed => ?_⟩
  rw [(hall p (.child hmem (.refl p))).2 q hexposed] at hwildcard
  cases hwildcard

/-- Whatever a text is parsed as, all integers in the tree are in the range of their types. A
decimal literal whose digits denote the opposite of the least number is the operand of a minus
sign wherever it stands. -/
theorem parse_integers_inRange {n : Node mode.form}
    (h : (parse text mode lexical preferences).evaluate = .ok n) :
    (∀ l, n.inner.literal? = some l → ¬ l.DenotesBound) ∧
      ∀ p, Part.Within p ⟨mode.form, n⟩ →
        (∀ l, p.node.inner.literal? = some l → l.InRange) ∧
        ∀ q ∈ p.children, ∀ l, q.node.inner.literal? = some l → l.DenotesBound →
          p.node.inner.negated? = some q := by
  have hplain := plain_of_parse h
  have hminus {p : Part} (hp : Part.Within p ⟨mode.form, n⟩) {l : LiteralText}
      (hl : p.node.inner.literal? = some l) (hbound : l.DenotesBound) :
      p.node.inner.needsMinus = true := by
    have hgenuine := (hplain.kept p hp).genuine l hl
    rw [Tree.needsMinus, hl]
    exact hgenuine.needsMinus_of_denotesBound hbound
  constructor
  · intro l hl hbound
    have hneeds := hminus (.refl _) hl hbound
    rw [hplain.needsMinus_eq] at hneeds
    cases hneeds
  · intro p hp
    refine ⟨fun l hl => ((hplain.kept p hp).genuine l hl).inRange, fun q hq l hl hbound => ?_⟩
    have hq' : Part.Within q ⟨mode.form, n⟩ := (Part.Within.child hq (.refl q)).trans hp
    exact (hplain.kept p hp).negated q hq (hminus hq' hl hbound)

/-- A minus sign has the opposite of the least `int` as its operand. -/
theorem parse_integers_inRange_at_bound :
    ∃ (n : Node .expression) (q : Part) (l : LiteralText),
      (parse "-2147483648" .expression).evaluate = .ok n ∧ q ∈ Part.children ⟨.expression, n⟩ ∧
      q.node.inner.literal? = some l ∧ l.DenotesBound ∧ l.InRange ∧ n.inner.negated? = some q := by
  have hview : (parse "-2147483648" .expression).evaluate.toOption.map (fun n =>
      (Part.children ⟨.expression, n⟩).map fun q =>
        q.node.inner.literal?.map fun l => (l.kind, l.text)) =
      some [some (.int, "2147483648")] := by decide +kernel
  obtain ⟨n, hparse, hn⟩ := @exists_parse_of_view "-2147483648" .expression _ _ _ hview
  obtain ⟨q, hq, hbelow⟩ := List.map_eq_singleton_iff.mp hn
  obtain ⟨l, hl, htext⟩ := Option.map_eq_some_iff.mp hbelow
  obtain ⟨hkind, htext⟩ := Prod.mk.inj htext
  obtain ⟨-, hall⟩ := parse_integers_inRange hparse
  have hmem : q ∈ Part.children ⟨.expression, n⟩ := by simp [hq]
  have hbound : l.DenotesBound := by
    have hdecimal : isDecimal "2147483648".toList = true := by decide
    refine .inl ⟨hkind, l.text.toList, [], (List.append_nil _).symm, ?_, .int, Nat.le_refl _⟩
    rw [htext]
    exact numeral_of_isDecimal hdecimal
  exact ⟨n, q, l, hparse, hmem, hl, hbound, (hall q (.child hmem (.refl q))).1 l hl,
    (hall _ (.refl _)).2 q hmem l hl hbound⟩

/-- Whatever a text is parsed as, no restricted name is the name of a declared type, nor the last
name of a class type, unless this is the type of a class literal. -/
theorem parse_type_names_unrestricted {n : Node mode.form}
    (h : (parse text mode lexical preferences).evaluate = .ok n) :
    n.inner.isRestricted = false ∧
      ∀ p, Part.Within p ⟨mode.form, n⟩ →
        (∀ name, p.node.inner.declaredType? = some name → isRestrictedTypeName name = false) ∧
        ∀ q ∈ p.children, q.node.inner.isRestricted = true → p.node.inner.literalType? = some q := by
  have hplain := plain_of_parse h
  refine ⟨hplain.isRestricted_eq, fun p hp => ?_⟩
  have hregular := hplain.kept p hp
  exact ⟨hregular.unrestricted, hregular.classLiteral⟩

/-- A class literal is the way for a restricted name to become that of a type. -/
theorem parse_type_names_unrestricted_but_in_class_literal :
    ∃ (n : Node .expression) (q : Part), (parse "record.class" .expression).evaluate = .ok n ∧
      q ∈ Part.children ⟨.expression, n⟩ ∧ q.node.inner.lastName? = some "record" ∧
      n.inner.literalType? = some q := by
  have hview : (parse "record.class" .expression).evaluate.toOption.map (fun n =>
      (Part.children ⟨.expression, n⟩).map (·.node.inner.lastName?)) = some [some "record"] := by
    decide +kernel
  obtain ⟨n, hparse, hn⟩ := @exists_parse_of_view "record.class" .expression _ _ _ hview
  obtain ⟨q, hq, hname⟩ := List.map_eq_singleton_iff.mp hn
  obtain ⟨-, hall⟩ := parse_type_names_unrestricted hparse
  have hmem : q ∈ Part.children ⟨.expression, n⟩ := by simp [hq]
  have hrestricted : q.node.inner.isRestricted = true := by
    rw [Tree.isRestricted, hname]
    decide
  exact ⟨n, q, hparse, hmem, hname, (hall _ (.refl _)).2 q hmem hrestricted⟩

end FrontEnd

end JavaSyntax
