import JavaSyntax.FrontEnd.Basic
import JavaSyntax.Proofs.Grammar.PlainExpressions
import JavaSyntax.Proofs.Grammar.PlainTypes
import JavaSyntax.Proofs.Syntax.Attempt

/-!
# Parsing what was printed

The canonical text of a tree is parsed to the tree again, up to the places of its nodes, for
the trees whose texts are known word by word: types without annotations, and expressions of
operators. There are two ways in which it may fail. The text may exceed a limit of the lexer,
and the tree may be nested deeper than the parser goes.
-/

namespace JavaSyntax

open JavaSyntax.Parser Grammar

/-! ### From texts to words -/

namespace FrontEnd

/-- A parse comes to a tree that is structurally equal to another one, if its parser does from
the first word to the last one, unless productions are nested too deep. -/
theorem parse_of_reaches (mode : ParseMode) {name : String} {p : Parser (Node mode.form)}
    {t : Node mode.form} {preferences : SyntaxPreferences} (x : Tokenized) {ws : List Word}
    (hmode : mode.parser = entry name p)
    (hwords : x.tokens.map Token.word = ws ++ [.stop])
    (hp : ∀ s : ParserState, s.cursor.Faces x ws →
      Reaches p s fun n c => n.bare = t.bare ∧ c.Faces x []) :
    (∃ n, (parse x.text mode x.preferences preferences).evaluate = .ok n ∧ n.bare = t.bare) ∨
      ∃ found span, (parse x.text mode x.preferences preferences).evaluate =
        .error (.grammar (.tooDeep found span)) := by
  let start := (ParserState.ofText x.text x.preferences preferences).pushContext name
  have hstart : start.cursor.Faces x ws := by
    rw [(pushContext_eq name (.ofText x.text x.preferences preferences)).1]
    exact (Cursor.faces_ofText x hwords).withJournal _
  have hwholly : Reaches p.wholly start fun n _ => n.bare = t.bare := by
    refine .bind (hp start hstart) ?_
    rintro n s ⟨hbare, hfaces⟩
    refine .bind (reaches_expectEnd hfaces) ?_
    rintro _ s -
    exact .pure hbare
  have hevaluate : (parse x.text mode x.preferences preferences).evaluate =
      (p.wholly start).1.mapError .ofSyntax := by
    change (mode.parser _).1.mapError FrontEndError.ofSyntax = _
    rw [hmode, entry_apply]
  rw [hevaluate]
  rcases hwholly.cases with ⟨n, s, hrun, hbare⟩ | ⟨e, s, hrun, found, span, rfl⟩
  · rw [hrun]
    exact .inl ⟨n, rfl, hbare⟩
  · rw [hrun]
    exact .inr ⟨found, span, rfl⟩

/-! ### Types -/

/-- The canonical text of a type without annotations is parsed to this type, up to the places
of its nodes, whatever angles it is nested in, unless it is nested too deep. -/
theorem parse_canonical_type {t : Node .type} (h : PlainType false t)
    (lexical : LexicalPreferences) (preferences : SyntaxPreferences)
    (hlimits : ∀ e, (tokenize t.canonical lexical).failure = some e → e.kind.isLimit = false) :
    (∃ n, (parse t.canonical .type lexical preferences).evaluate = .ok n ∧ n.bare = t.bare) ∨
      ∃ found span, (parse t.canonical .type lexical preferences).evaluate =
        .error (.grammar (.tooDeep found span)) := by
  have hread : Piece.Readable t.pieces .endOfText := h.readable rfl
  rcases tokenize_of_readable lexical h.toList_canonical hread with
    ⟨e, he, hlimit⟩ | ⟨hnone, ws, hwords, hsingles⟩
  · rw [hlimits e he] at hlimit
    cases hlimit
  · let x : Tokenized := ⟨t.canonical, lexical, hnone⟩
    refine parse_of_reaches .type x rfl hwords fun s hs => ?_
    have hreads := PlainType.readsTypes_levels (x := x) (Limits.maxParseDepth + 1) t h [] rfl s
      ⟨ws, hs, hsingles.trans (List.append_nil _).symm⟩
    refine hreads.mono ?_
    rintro n c ⟨hbare, us, hfaces, hnil⟩
    cases us with
    | nil => exact ⟨hbare, hfaces⟩
    | cons w us => exact absurd (List.append_eq_nil_iff.mp hnil).1 w.singles_ne_nil

/-- The type of a class with arguments. -/
def classTypeOf (name : String) (arguments : List (Node .type)) : Node .type :=
  .located (.classType (.ofList ([(name, some arguments)].map Tree.plainSegment))) .nowhere ""

/-- The type `Map<?, List<Set<>>>[]`. -/
def nestedType : Node .type :=
  .located (.arrayType
    (classTypeOf "Map" [.located (.wildcardType .nil .absent) .nowhere "",
      classTypeOf "List" [classTypeOf "Set" []]])
    (.ofList (List.replicate 1 (.dimension .nil)))) .nowhere ""

/-- A class with plain arguments is a plain type, if its name may be the name of a type. -/
theorem plainType_classTypeOf {wild : Bool} {name : String} {arguments : List (Node .type)}
    (hname : isName name = true) (hlast : isRestrictedTypeName name = false)
    (h : ∀ t ∈ arguments, PlainType true t) : PlainType wild (classTypeOf name arguments) := by
  refine .classType nofun ?_ ?_ ?_
  · rintro s (_ | ⟨_, ⟨⟩⟩)
    exact hname
  · rintro s ⟨⟩
    exact hlast
  · rintro s (_ | ⟨_, ⟨⟩⟩) ts ⟨⟩
    exact h

/-- Three closing angles that are one token close three lists of arguments. -/
theorem parse_nestedType :
    nestedType.canonical = "Map<?, List<Set<>>>[]" ∧
      ∃ n, (parse nestedType.canonical .type {} {}).evaluate = .ok n ∧ n.bare = nestedType.bare := by
  have hset : PlainType true (classTypeOf "Set" []) :=
    plainType_classTypeOf (by decide +kernel) (by decide) (List.forall_mem_nil _)
  have hlist : PlainType true (classTypeOf "List" [classTypeOf "Set" []]) := by
    refine plainType_classTypeOf (by decide +kernel) (by decide) ?_
    rintro t (_ | ⟨_, ⟨⟩⟩)
    exact hset
  have hmap : PlainType false (classTypeOf "Map" [.located (.wildcardType .nil .absent) .nowhere "",
      classTypeOf "List" [classTypeOf "Set" []]]) := by
    refine plainType_classTypeOf (by decide +kernel) (by decide) ?_
    rintro t (_ | ⟨_, _ | ⟨_, ⟨⟩⟩⟩)
    · exact .wildcard
    · exact hlist
  have hflat : ¬ (classTypeOf "Map" [.located (.wildcardType .nil .absent) .nowhere "",
      classTypeOf "List" [classTypeOf "Set" []]]).inner.IsArray := by
    rintro ⟨_, _, ⟨⟩⟩
  have hplain : PlainType false nestedType := .array 0 hflat hmap
  have hnone : (tokenize nestedType.canonical {}).failure = none := by decide +kernel
  have hok : (parse nestedType.canonical .type {} {}).evaluate.isOk = true := by decide +kernel
  refine ⟨by decide +kernel, ?_⟩
  rcases parse_canonical_type hplain {} {} (by simp [hnone]) with hread | ⟨found, span, hdeep⟩
  · exact hread
  · rw [hdeep] at hok
    cases hok

/-! ### Expressions -/

/-- The canonical text of an expression of operators is parsed to this expression, up to the
places of its nodes, unless it is nested too deep. -/
theorem parse_canonical_expression {e : Node .expression} (h : PlainExpression e)
    (lexical : LexicalPreferences) (preferences : SyntaxPreferences)
    (hlimits : ∀ e', (tokenize e.canonical lexical).failure = some e' → e'.kind.isLimit = false) :
    (∃ n, (parse e.canonical .expression lexical preferences).evaluate = .ok n ∧
        n.bare = e.bare) ∨
      ∃ found span, (parse e.canonical .expression lexical preferences).evaluate =
        .error (.grammar (.tooDeep found span)) := by
  have hlegible : Piece.Legible e.pieces .endOfText := h.legible (.inl rfl)
  rcases tokenize_of_legible lexical h.toList_canonical hlegible with
    ⟨e', he', hlimit⟩ | ⟨hnone, hwords⟩
  · rw [hlimits e' he'] at hlimit
    cases hlimit
  · let x : Tokenized := ⟨e.canonical, lexical, hnone⟩
    have hlevels := PlainExpression.readsOperations_levels (x := x) (Limits.maxParseDepth + 1)
    refine parse_of_reaches .expression x rfl hwords fun s hs => ?_
    have hstart : s.cursor.Awaits x (e.words ++ []) := by
      rw [List.append_nil]
      exact ⟨hs, .operand, h.admits⟩
    exact (hlevels.expression e h trivial [] (Nat.le_refl 0) s hstart).mono fun n c ⟨hbare, hc⟩ =>
      ⟨hbare, hc.faces⟩

/-- A tree that no place is known of. -/
def placeless (t : Tree .expression) : Node .expression := .located t .nowhere ""

def nameOf (name : String) : Node .expression := placeless (.simpleName name)

/-- The expression `a < 7 ? - -(b + c) : d++`. -/
def stackedExpression : Node .expression :=
  placeless (.conditional
    (placeless (.binary (nameOf "a") .less
      (placeless (.literal ⟨.int, some (.integer 7 .decimal), "7"⟩))))
    (placeless (.unary .minus (placeless (.unary .minus
      (placeless (.parenthesized (placeless (.binary (nameOf "b") .add (nameOf "c")))))))))
    (placeless (.unary .postIncrement (nameOf "d"))))

/-- Two minus signs are not read as one, and a comparison is no type. -/
theorem parse_stackedExpression :
    stackedExpression.canonical = "a < 7 ? - -(b + c) : d++" ∧
      ∃ n, (parse stackedExpression.canonical .expression {} {}).evaluate = .ok n ∧
        n.bare = stackedExpression.bare := by
  have ha : PlainExpression (nameOf "a") := .name (by decide +kernel)
  have hb : PlainExpression (nameOf "b") := .name (by decide +kernel)
  have hc : PlainExpression (nameOf "c") := .name (by decide +kernel)
  have hd : PlainExpression (nameOf "d") := .name (by decide +kernel)
  have hname (name : String) (least : Nat) : (nameOf name).inner.BindsAtLeast least :=
    Tree.bindsAtLeast_of_isOperand rfl least
  have hseven : PlainExpression (placeless (.literal ⟨.int, some (.integer 7 .decimal), "7"⟩)) :=
    .literal ⟨rfl, by decide +kernel, rfl, by decide +kernel⟩
  have hcondition : PlainExpression (placeless (.binary (nameOf "a") .less _)) :=
    .binary ha hseven (hname "a" _) (Tree.bindsAtLeast_of_isOperand rfl _) nofun
  have hsum : PlainExpression (placeless (.binary (nameOf "b") .add (nameOf "c"))) :=
    .binary hb hc (hname "b" _) (hname "c" _) nofun
  have hgroup : PlainExpression (placeless (.parenthesized _)) := .parenthesized hsum
  have hminus : PlainExpression (placeless (.unary .minus (placeless (.unary .minus _)))) :=
    .unary (.unary hgroup rfl nofun) rfl nofun
  have hstep : PlainExpression (placeless (.unary .postIncrement (nameOf "d"))) :=
    .unary hd rfl fun _ => rfl
  have hplain : PlainExpression stackedExpression :=
    .conditional hcondition hminus hstep rfl rfl
  have hnone : (tokenize stackedExpression.canonical {}).failure = none := by decide +kernel
  have hok : (parse stackedExpression.canonical .expression {} {}).evaluate.isOk = true := by
    decide +kernel
  refine ⟨by decide +kernel, ?_⟩
  rcases parse_canonical_expression hplain {} {} (by simp [hnone]) with
    hread | ⟨found, span, hdeep⟩
  · exact hread
  · rw [hdeep] at hok
    cases hok

end FrontEnd

end JavaSyntax
