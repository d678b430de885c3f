import JavaSyntax.Grammar.Levels
import JavaSyntax.Proofs.Grammar.TypesAhead
import JavaSyntax.Proofs.Grammar.TypesTaken
import JavaSyntax.Proofs.Token.Twins

/-!
# The lookahead and the grammar agree about types

There are two ways over a type. The lookahead counts the closing angles of a token down, and the
grammar splits the token in the buffer. Both pass the kinds that the recognizer of types passes, so
they end at the same place of the text, which may be inside of a token.
-/

namespace JavaSyntax

open JavaSyntax.Parser (Gives gives_peek)

/-! ### Places of kinds in a text -/

/-- Where the kinds stand that a token stands for. -/
def Token.places (t : Token) : List Nat := (List.range t.kind.singles.length).map (t.offset + ·)

/-- A token that is split in a tame text stands for the same kinds at the same places. -/
theorem Token.places_parts {t : Token} {kind : TokenKind} (hkind : t.kind.afterGreater? = some kind)
    (htame : t.kind.isTame = true) :
    t.greaterHead.places ++ (t.greaterTail kind).places = t.places := by
  have hhead : t.greaterHead.offset = t.offset := rfl
  have htail : (t.greaterTail kind).offset = t.offset + 1 := rfl
  have hsingle : t.greaterHead.kind = .greater := rfl
  have hrest : (t.greaterTail kind).kind = kind := rfl
  rw [places, places, places, hhead, htail, hsingle, hrest]
  generalize t.kind = k at hkind htame
  cases k <;> cases hkind <;> first | rfl | cases htame

/-- Splitting the tokens of a tame text moves no kind. -/
theorem SplitsTo.places_eq {tokens buffer : List Token} {splits : List (Nat × Token)}
    (h : SplitsTo tokens splits buffer) (htame : ∀ t ∈ tokens, t.kind.isTame = true) :
    buffer.flatMap Token.places = tokens.flatMap Token.places := by
  induction h with
  | whole => rfl
  | @split splits pre post t kind h hkind ih =>
    obtain ⟨v, hv, hpart⟩ := h.exists_partOf (t := t) (by simp)
    rw [← ih]
    simp only [List.flatMap_append, List.flatMap_cons]
    rw [← Token.places_parts hkind (hpart.isTame (htame v hv)), List.append_assoc]

namespace Cursor

variable {x : Tokenized} {c : Cursor} {ws : List Word}

/-- Where the kinds ahead of a cursor stand, and where the text ends. -/
def places (x : Tokenized) (c : Cursor) : List Nat := (c.upcoming x).flatMap Token.places

/-- The places ahead are the last ones of the text. -/
theorem On.places_isSuffix (h : c.On x) (hx : x.IsTame) :
    c.places x <:+ x.tokens.flatMap Token.places := by
  rw [← h.splitsTo.places_eq hx, places, h.upcoming_eq]
  generalize c.buffer.toList ++ x.tokens.drop c.wholes.length = all
  refine ⟨(all.take c.position).flatMap Token.places, ?_⟩
  rw [← List.flatMap_append, List.take_append_drop]

/-- There is a place for every kind ahead, and one for the end. -/
theorem Faces.length_places (h : c.Faces x ws) :
    (c.places x).length = (kindsAhead ws).length + 1 := by
  have hlength (ts : List Token) :
      (ts.flatMap Token.places).length = (kindsAhead (ts.map Token.word)).length := by
    induction ts with
    | nil => rfl
    | cons t ts ih =>
      rw [List.flatMap_cons, List.length_append, ih, List.map_cons, kindsAhead, kindsAhead,
        List.flatMap_cons, List.length_append, Token.places, List.length_map, List.length_range]
      rfl
  rw [places, hlength, h.words_eq, kindsAhead, kindsAhead, List.flatMap_append, List.length_append]
  rfl

/-- The token that comes next stands at the first places ahead. -/
theorem Faces.exists_places {s : ParserState} {E : SyntaxError → Prop} (h : s.cursor.Faces x ws) :
    Gives E (Parser.peek 0) s fun t c => t.word = wordAt ws 0 ∧ c.Faces x ws ∧
      ∃ more, c.places x = t.places ++ more := by
  obtain ⟨t, c, hpeek, hword, hfaces, -⟩ := h.peekAhead 0
  refine .read hpeek ⟨hword, hfaces, ?_⟩
  have hcurrent := h.on.settled.getElem?_current hpeek
  have hfirst := hfaces.on.upcoming_of_getElem? (n := 0) hcurrent
  obtain ⟨hlt, hfirst⟩ := List.getElem?_eq_some_iff.mp hfirst
  refine ⟨((c.upcoming x).drop 1).flatMap Token.places, ?_⟩
  rw [places, ← List.flatMap_cons, ← hfirst, ← List.drop_eq_getElem_cons hlt, List.drop_zero]

end Cursor

/-! ### Where a type ends -/

/-- Where the token stands that comes next. -/
def Parser.offset : Parser Nat := return (← peek 0).offset

/-- Where a lookahead stands in the text, which may be behind some `>` of the current token. -/
def Lookahead.offset : Lookahead Nat := do
  let token ← (Parser.peek 0 : Parser Token)
  let pending := (← get).pending
  if pending = 0 then return token.offset
  else return token.offset + (token.source.utf8ByteSize - pending)

/-- A place of the text from which so many kinds are ahead. -/
def Tokenized.Place (x : Tokenized) (n offset : Nat) : Prop :=
  ∃ more : List Nat, offset :: more <:+ x.tokens.flatMap Token.places ∧ more.length = n

/-- From different places different numbers of kinds are ahead. -/
theorem Tokenized.Place.unique {x : Tokenized} {n o o' : Nat} (h : x.Place n o)
    (h' : x.Place n o') : o = o' := by
  obtain ⟨more, hsuffix, hlength⟩ := h
  obtain ⟨more', hsuffix', hlength'⟩ := h'
  have hle : (o :: more).length ≤ (o' :: more').length := by simp [hlength, hlength']
  have hboth := List.suffix_of_suffix_length_le hsuffix hsuffix' hle
  have heq := hboth.eq_of_length (by simp [hlength, hlength'])
  exact (List.cons.inj heq).1

namespace Cursor

variable {x : Tokenized} {c : Cursor} {ws : List Word}

/-- The kinds of the token that comes next stand one byte behind the other. -/
theorem Faces.place (h : c.Faces x ws) (hx : x.IsTame) {t : Token} {more : List Nat}
    (hplaces : c.places x = t.places ++ more) {d : Nat} (hd : d < t.kind.singles.length) :
    x.Place ((kindsAhead ws).length - d) (t.offset + d) := by
  have hlength := h.length_places
  have hd' : d < t.places.length := by rwa [Token.places, List.length_map, List.length_range]
  have hdrop : (c.places x).drop d = (t.offset + d) :: (t.places.drop (d + 1) ++ more) := by
    rw [hplaces, List.drop_append_of_le_length (Nat.le_of_lt hd'), List.drop_eq_getElem_cons hd']
    simp [Token.places]
  refine ⟨t.places.drop (d + 1) ++ more, ?_, ?_⟩
  · rw [← hdrop]
    exact (List.drop_suffix d _).trans (h.on.places_isSuffix hx)
  · have hall := congrArg List.length hdrop
    rw [List.length_drop, hlength, List.length_cons] at hall
    omega

/-- A word of several angles has as many bytes. -/
theorem Faces.utf8ByteSize_eq (h : c.Faces x ws) {w : Word} (hw : w ∈ ws)
    (hangles : 1 < w.kind.singles.length) : w.text.utf8ByteSize = w.kind.singles.length := by
  obtain ⟨t, rfl, -, -, hspelt⟩ := h.exists_token hw
  have htext {text : String} (hsymbol : t.word.kind.symbol? = some text) : t.word.text = text :=
    hspelt text hsymbol
  unfold TokenKind.singles at hangles ⊢
  split at hangles
  · rename_i hkind
    rw [htext (by rw [hkind]; rfl)]
    rfl
  · rename_i hkind
    rw [htext (by rw [hkind]; rfl)]
    rfl
  · cases Nat.lt_irrefl 1 hangles

end Cursor

section Offsets

variable {x : Tokenized} {s : ParserState} {ks : List TokenKind} {E : SyntaxError → Prop}

/-- A parser that has these kinds ahead stands at the place from which they are ahead. -/
theorem Parser.gives_offset (hx : x.IsTame) (h : s.cursor.FacesKinds x ks) :
    Gives E Parser.offset s fun o _ => x.Place ks.length o := by
  obtain ⟨ws, hfaces, rfl⟩ := h
  refine .bind hfaces.exists_places ?_
  rintro t s' ⟨-, hfaces, more, hplaces⟩
  exact .pure (hfaces.place hx hplaces (List.length_pos_iff.mpr t.kind.singles_ne_nil))

/-- Inside of a token a lookahead stands as many bytes before its end as angles are left. -/
theorem Lookahead.offset_eq (σ : LookaheadState) :
    Lookahead.offset σ = Parser.peek 0 >>= fun t =>
      pure (if σ.pending = 0 then t.offset
        else t.offset + (t.source.utf8ByteSize - σ.pending), σ) := by
  change ((Parser.peek 0 >>= fun t => pure (t, σ)) >>= fun r =>
    (if r.2.pending = 0 then pure r.1.offset
      else pure (r.1.offset + (r.1.source.utf8ByteSize - r.2.pending)) : Lookahead Nat) r.2) = _
  rw [bind_assoc]
  simp only [pure_bind]
  congr
  funext t
  split <;> rfl

/-- A lookahead that has these kinds ahead stands at the place from which they are ahead. -/
theorem Lookahead.gives_offset {σ : LookaheadState} (hx : x.IsTame)
    (h : Views x ks σ s.cursor) :
    Gives E (Lookahead.offset.run' σ) s fun o _ => x.Place ks.length o := by
  refine Gives.map (g := Prod.fst) ?_
  rw [Lookahead.offset_eq]
  generalize hc : s.cursor = c at h
  cases h with
  | @outside ws σ c hσ h =>
    subst hc
    refine .bind h.exists_places ?_
    rintro t s' ⟨-, hfaces, more, hplaces⟩
    rw [if_pos hσ]
    exact .pure (hfaces.place hx hplaces (List.length_pos_iff.mpr t.kind.singles_ne_nil))
  | @inside w ws σ c hσ hlt h =>
    subst hc
    refine .bind h.exists_places ?_
    rintro t s' ⟨hword, hfaces, more, hplaces⟩
    rw [wordAt_cons_zero] at hword
    have hsize := hfaces.utf8ByteSize_eq List.mem_cons_self (by omega)
    have hplace := hfaces.place hx hplaces (d := w.kind.singles.length - σ.pending)
      (by rw [show t.kind = w.kind from congrArg Word.kind hword]; omega)
    rw [if_neg hσ, show t.source = w.text from congrArg Word.text hword, hsize]
    refine .pure ?_
    rw [kindsAhead, List.flatMap_cons, List.length_append] at hplace
    rw [List.length_append, List.length_replicate]
    rw [show w.kind.singles.length + (ws.flatMap (·.kind.singles)).length -
      (w.kind.singles.length - σ.pending) = σ.pending + (kindsAhead ws).length by
        rw [kindsAhead]; omega] at hplace
    exact hplace

end Offsets

/-! ### Agreement -/

/-- The lookahead and the grammar agree about types, in every text without annotations and operators
that start with `>` and end with `=`, and wherever the parse stands in it. If the grammar takes a
type, and not more kinds are ahead than the budget of a lookahead, then a lookahead passes it and
stops at the same place. If a lookahead passes a type, then the grammar takes it, unless a name in
it is restricted or it is nested too deep. -/
theorem types_agree {x : Tokenized} (hx : x.IsTame) {s : ParserState} {ws : List Word}
    (h : s.cursor.Faces x ws) :
    (∀ {n : Node .type} {s₁ : ParserState}, grammar.type s = (.ok n, s₁) →
      (kindsAhead ws).length ≤ Limits.maxLookaheadTokens →
      ∃ σ s₂ o, Lookahead.skipType {} s = (.ok (true, σ), s₂) ∧
        (Lookahead.offset.run' σ s₂).1 = .ok o ∧ (Parser.offset s₁).1 = .ok o) ∧
    (∀ {σ : LookaheadState} {s₂ : ParserState}, Lookahead.skipType {} s = (.ok (true, σ), s₂) →
      (∃ n s₁, grammar.type s = (.ok n, s₁)) ∨
      ∃ e s₁, grammar.type s = (.error e, s₁) ∧
        (e.code = .contextualKeyword ∨ e.code = .maxRecursionDepth)) := by
  have htype : Parser.Leaves x grammar.type s (Recognizer.type (kindsAhead ws)) :=
    Parser.leavesTypes_levels hx _ ⟨ws, h, rfl⟩
  have hsees : Lookahead.Sees x (kindsAhead ws).length (kindsAhead ws) 0 (kindsAhead ws) {}
      s.cursor := ⟨.outside rfl h, by simp, Nat.zero_le _, .refl _⟩
  obtain ⟨b, σ, s₂, hskip, htells⟩ := (Lookahead.follows_skipType hsees).exists_eq
  refine ⟨?_, ?_⟩
  · intro n s₁ hn hbudget
    rw [Parser.Leaves, Gives, hn] at htype
    obtain ⟨rest, hrest, hkinds⟩ := htype
    cases b with
    | false =>
      rcases htells with hnone | ⟨ks, -, hexceeds⟩
      · rw [hrest] at hnone
        cases hnone
      · omega
    | true =>
      obtain ⟨rest', hrest', hsees⟩ := htells
      obtain rfl : rest' = rest := by
        rw [hrest] at hrest'
        exact (Option.some.inj hrest').symm
      obtain ⟨o, s₃, hoffset, hplace⟩ := (Lookahead.gives_offset hx hsees.views).exists_eq
      obtain ⟨o', s₄, hoffset', hplace'⟩ := (Parser.gives_offset hx hkinds).exists_eq
      obtain rfl := hplace.unique hplace'
      exact ⟨σ, s₂, o, hskip, congrArg Prod.fst hoffset, congrArg Prod.fst hoffset'⟩
  · intro σ' s' hskip'
    rw [hskip] at hskip'
    cases hskip'
    obtain ⟨rest, hrest, -⟩ := htells
    rcases htype.cases with ⟨n, s₁, hn, -⟩ | ⟨e, s₁, he, hfails⟩
    · exact .inl ⟨n, s₁, hn⟩
    · refine .inr ⟨e, s₁, he, ?_⟩
      rcases hfails with hdeep | hrestricted | hnone
      · exact .inr hdeep
      · exact .inl hrestricted
      · rw [hrest] at hnone
        cases hnone

/-- A type that ends with the first `>` of a `>>` ends one byte into this token. -/
theorem types_agree_inside_shift :
    ∃ n s₁ σ s₂, grammar.type (.ofText "B<C>> x") = (.ok n, s₁) ∧
      Lookahead.skipType {} (.ofText "B<C>> x") = (.ok (true, σ), s₂) ∧
      (Lookahead.offset.run' σ s₂).1 = .ok 4 ∧ (Parser.offset s₁).1 = .ok 4 := by
  let x : Tokenized := ⟨"B<C>> x", {}, by decide +kernel⟩
  have htame : x.IsTame := by
    have hall : x.tokens.all (·.kind.isTame) = true := by decide +kernel
    exact fun t ht => List.all_eq_true.mp hall t ht
  have hon : (Cursor.ofText x.text x.preferences).On x :=
    ⟨Cursor.settled_ofText _ _, Cursor.over_ofText _ _⟩
  obtain ⟨ws, hfaces⟩ := hon.exists_faces
  let start : ParserState := .ofText "B<C>> x"
  have hstart : start.cursor.Faces x ws := hfaces.withJournal _
  have hlength : (kindsAhead ws).length ≤ Limits.maxLookaheadTokens := by
    have hle := Cursor.FacesSingly.length_le ⟨ws, hfaces, rfl⟩
    rw [← map_kind_flatMap_singles, List.length_map]
    exact Nat.le_trans hle (by decide +kernel)
  have hend : ((do let _ ← grammar.type; Parser.offset) start).1.toOption = some 4 := by
    decide +kernel
  rw [Work.bind_apply] at hend
  rcases hrun : grammar.type start with ⟨_ | n, s₁⟩
  · rw [hrun] at hend
    cases hend
  · rw [hrun] at hend
    obtain ⟨σ, s₂, o, hskip, hoffset, hoffset'⟩ := (types_agree htame hstart).1 hrun hlength
    dsimp only at hend
    rw [hoffset'] at hend
    obtain rfl : o = 4 := Option.some.inj hend
    exact ⟨n, s₁, σ, s₂, rfl, hskip, hoffset, hoffset'⟩

end JavaSyntax
