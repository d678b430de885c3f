import JavaSyntax.Proofs.Token.Mirror
import JavaSyntax.Proofs.Token.Places

/-!
# Texts with the same words

Two texts can have the same words and differ in everything that stands between them. A cursor
in the one and a cursor in the other match if they stand at the same index and have split the
same tokens: then they face the same words. What stands between words is seen in one place
only, between the three tokens of `non-sealed`. Splitting touches none of these three, so they
are in one piece or not in the buffers as they are in the texts.
-/

namespace JavaSyntax

open Cursor

/-! ### Words in one piece -/

/-- The three tokens of `non-sealed` start at an index, with nothing between them. -/
def JoinedAt (ts : List Token) (i : Nat) : Prop :=
  ∃ first second third, ts[i]? = some first ∧ ts[i + 1]? = some second ∧
    ts[i + 2]? = some third ∧ first.isWord "non" = true ∧ second.kind = .minus ∧
    third.isWord "sealed" = true ∧ second.affiliations = [] ∧ third.affiliations = []

/-- The index of a `non-sealed` in one piece is that of a token. -/
theorem JoinedAt.lt_length {ts : List Token} {i : Nat} (h : JoinedAt ts i) : i < ts.length := by
  obtain ⟨first, -, -, hfirst, -⟩ := h
  exact (List.getElem?_eq_some_iff.mp hfirst).1

instance (ts : List Token) (i : Nat) : Decidable (JoinedAt ts i) :=
  match hfirst : ts[i]?, hsecond : ts[i + 1]?, hthird : ts[i + 2]? with
  | some first, some second, some third =>
    decidable_of_iff (first.isWord "non" = true ∧ second.kind = .minus ∧
      third.isWord "sealed" = true ∧ second.affiliations = [] ∧ third.affiliations = []) <| by
        simp [JoinedAt, hfirst, hsecond, hthird]
  | none, _, _ => .isFalse <| by simp [JoinedAt, hfirst]
  | _, none, _ => .isFalse <| by simp [JoinedAt, hsecond]
  | _, _, none => .isFalse <| by simp [JoinedAt, hthird]

/-- Lists of tokens with the same words, among them the same `non-sealed` in one piece. -/
structure Twins (ts us : List Token) : Prop where
  words_eq : us.map Token.word = ts.map Token.word
  joined_iff : ∀ i, JoinedAt us i ↔ JoinedAt ts i

/-- Words that are no keywords are identifiers. -/
theorem Token.kind_of_isWord {t : Token} {word : String} (h : t.isWord word = true) :
    t.kind = .identifier := eq_of_beq (Bool.and_eq_true_iff.mp h).1

section Parts

variable {pre post : List Token} {t head tail : Token} {kind : TokenKind} {i : Nat}

/-- Before a split, the tokens are where they were. -/
theorem getElem?_before_parts (hi : i < pre.length) :
    (pre ++ head :: tail :: post)[i]? = (pre ++ t :: post)[i]? := by
  rw [List.getElem?_append_left hi, List.getElem?_append_left hi]

/-- Behind a split, the tokens are one index further on. -/
theorem getElem?_after_parts (hi : pre.length < i) :
    (pre ++ head :: tail :: post)[i + 1]? = (pre ++ t :: post)[i]? := by
  obtain ⟨k, rfl⟩ := Nat.exists_eq_add_of_lt hi
  rw [List.getElem?_append_right (by omega), List.getElem?_append_right (by omega)]
  have hleft : pre.length + k + 1 + 1 - pre.length = k + 1 + 1 := by omega
  have hright : pre.length + k + 1 - pre.length = k + 1 := by omega
  rw [hleft, hright]
  rfl

/-- The tokens of `non-sealed` stand before a token that was split or behind it. -/
theorem joinedAt_parts (hkind : t.kind.afterGreater? = some kind) :
    JoinedAt (pre ++ t.greaterHead :: t.greaterTail kind :: post) i ↔
      (i + 2 < pre.length ∧ JoinedAt (pre ++ t :: post) i) ∨
        ∃ j, i = j + 1 ∧ pre.length < j ∧ JoinedAt (pre ++ t :: post) j := by
  have hhead : (pre ++ t.greaterHead :: t.greaterTail kind :: post)[pre.length]? =
      some t.greaterHead := by simp
  have htail : (pre ++ t.greaterHead :: t.greaterTail kind :: post)[pre.length + 1]? =
      some (t.greaterTail kind) := by simp
  have hleads := (TokenKind.leads_of_afterGreater? hkind).1
  constructor
  · rintro ⟨first, second, third, hfirst, hsecond, hthird, hnon, hminus, hsealed, hjoined⟩
    have hne : i ≠ pre.length ∧ i ≠ pre.length + 1 ∧ i + 1 ≠ pre.length ∧ i + 2 ≠ pre.length := by
      refine ⟨?_, ?_, ?_, ?_⟩ <;> intro heq
      · rw [heq, hhead] at hfirst
        cases hfirst
        cases hnon
      · rw [heq, htail] at hfirst
        cases hfirst
        have hidentifier : kind = .identifier := Token.kind_of_isWord hnon
        rw [hidentifier] at hleads
        cases hleads
      · rw [heq, hhead] at hsecond
        cases hsecond
        cases hminus
      · rw [heq, hhead] at hthird
        cases hthird
        cases hsealed
    by_cases hbefore : i + 2 < pre.length
    · rw [getElem?_before_parts (t := t) (by omega)] at hfirst hsecond hthird
      exact .inl ⟨hbefore, first, second, third, hfirst, hsecond, hthird, hnon, hminus, hsealed,
        hjoined⟩
    · obtain ⟨j, rfl⟩ : ∃ j, i = j + 1 := ⟨i - 1, by omega⟩
      have hafter : pre.length < j := by omega
      rw [getElem?_after_parts (t := t) (by omega)] at hfirst hsecond hthird
      exact .inr ⟨j, rfl, hafter, first, second, third, hfirst, hsecond, hthird, hnon, hminus,
        hsealed, hjoined⟩
  · rintro (⟨hbefore, hjoined⟩ | ⟨j, rfl, hafter, hjoined⟩)
    · obtain ⟨first, second, third, hfirst, hsecond, hthird, hwords⟩ := hjoined
      refine ⟨first, second, third, ?_, ?_, ?_, hwords⟩ <;>
        rwa [getElem?_before_parts (t := t) (by omega)]
    · obtain ⟨first, second, third, hfirst, hsecond, hthird, hwords⟩ := hjoined
      refine ⟨first, second, third, ?_, ?_, ?_, hwords⟩
      · rwa [getElem?_after_parts hafter]
      · rwa [getElem?_after_parts (by omega)]
      · rwa [getElem?_after_parts (by omega)]

end Parts

/-- Splitting the same token on both sides keeps twins. -/
theorem Twins.parts {pre pre' post post' : List Token} {t u : Token} {kind kind' : TokenKind}
    (h : Twins (pre ++ t :: post) (pre' ++ u :: post')) (hlength : pre'.length = pre.length)
    (hkind : t.kind.afterGreater? = some kind) (hkind' : u.kind.afterGreater? = some kind') :
    Twins (pre ++ t.greaterHead :: t.greaterTail kind :: post)
      (pre' ++ u.greaterHead :: u.greaterTail kind' :: post') where
  words_eq := by
    have hwords := h.words_eq
    simp only [List.map_append, List.map_cons] at hwords ⊢
    obtain ⟨hpre, htokens⟩ := List.append_inj hwords (by simpa using hlength)
    obtain ⟨hword, hpost⟩ := List.cons.inj htokens
    have hsame : kind' = kind := by
      have hafter := congrArg (·.kind.afterGreater?) hword
      rw [show u.word.kind.afterGreater? = _ from hkind',
        show t.word.kind.afterGreater? = _ from hkind] at hafter
      exact Option.some.inj hafter
    rw [hpre, hpost, Token.word_greaterTail, Token.word_greaterTail, hword, hsame]
    rfl
  joined_iff i := by
    simp only [joinedAt_parts hkind, joinedAt_parts hkind', hlength, h.joined_iff]

/-- The same splits make twins of twins. -/
theorem SplitsTo.twins {ts us bs bs' : List Token} {splits splits' : List (Nat × Token)}
    (h : SplitsTo ts splits bs) (h' : SplitsTo us splits' bs') (htwins : Twins ts us)
    (hindices : splits'.map Prod.fst = splits.map Prod.fst) : Twins bs bs' := by
  induction h generalizing splits' bs' with
  | whole =>
    cases h' with
    | whole => exact htwins
    | split => cases hindices
  | split h hkind ih =>
    cases h' with
    | whole => cases hindices
    | split h' hkind' =>
      obtain ⟨hlength, hrest⟩ := List.cons.inj hindices
      exact (ih h' hrest).parts hlength hkind hkind'

/-! ### What stands between words -/

/-- Nothing stands before a token exactly if it starts where the tiles do. -/
theorem Tiles.start_eq_iff {text : String} {t : Token} {fs : List Fragment} {start stop : Nat}
    (h : Tiles text start (t.fragments ++ fs) stop) (ht : ∀ a ∈ t.affiliations, a.text ≠ "") :
    start = t.span.start.offset ↔ t.affiliations = [] := by
  rw [Token.fragments, List.append_assoc] at h
  obtain ⟨middle, hbefore, htoken⟩ := h.exists_of_append
  have hmiddle := hbefore.stop_eq
  cases htoken with
  | cons =>
    dsimp only at hmiddle
    cases haffiliations : t.affiliations with
    | nil =>
      rw [haffiliations] at hmiddle
      simp only [List.map_nil, joined_nil, String.utf8ByteSize_empty, Nat.add_zero] at hmiddle
      exact ⟨fun _ => rfl, fun _ => hmiddle.symm⟩
    | cons a affiliations =>
      have ha : a.text.utf8ByteSize ≠ 0 := by
        simpa using ht a (by rw [haffiliations]; exact List.mem_cons_self)
      rw [haffiliations, List.map_cons, ← List.singleton_append, joined_append, joined_singleton,
        String.utf8ByteSize_append, Affiliation.fragment] at hmiddle
      refine ⟨fun heq => ?_, fun hnil => by cases hnil⟩
      dsimp only at hmiddle
      omega

/-- What stands between words is never empty. -/
theorem Tokenized.affiliation_ne_empty (x : Tokenized) {t : Token} (ht : t ∈ x.tokens) :
    ∀ a ∈ t.affiliations, a.text ≠ "" := by
  obtain ⟨body, m, -, hread, -, htokens⟩ := tokenize_eq_ok x.toExcept_tokenize
  intro a ha
  rw [htokens] at ht
  rcases List.mem_append.mp ht with ht | ht
  · refine hread.nonempty a.fragment (List.mem_append_left _ ?_)
    exact List.mem_flatMap.mpr ⟨t, ht, Affiliation.fragment_mem_fragments ha⟩
  · obtain rfl := List.mem_singleton.mp ht
    exact hread.nonempty a.fragment (List.mem_append_right _ (List.mem_map_of_mem ha))

namespace Cursor

variable {x y : Tokenized} {c d : Cursor}

/-- Three tokens stand together exactly if nothing stands between them. -/
theorem On.areAdjacent_iff (h : c.On x) {t₁ t₂ t₃ : Token} (hat : c.AtNonSealed t₁ t₂ t₃) :
    Parser.areAdjacent t₁ t₂ t₃ = true ↔ t₂.affiliations = [] ∧ t₃.affiliations = [] := by
  have hfirst := hat.first_eq
  have hsecond := hat.second_eq
  have hthird := hat.third_eq
  rw [← Array.getElem?_toList] at hfirst hsecond hthird
  have hmem₂ := h.mem_of_leads (List.mem_of_getElem? hsecond) (by rw [hat.kind_second]; rfl)
  have hmem₃ := h.mem_of_leads (List.mem_of_getElem? hthird)
    (by rw [Token.kind_of_isWord hat.isWord_third]; rfl)
  have htiles := h.tiles
  have hbuffer : c.buffer.toList = c.buffer.toList.take c.position ++
      t₁ :: t₂ :: t₃ :: c.buffer.toList.drop (c.position + 3) := by
    obtain ⟨h₁, rfl⟩ := List.getElem?_eq_some_iff.mp hfirst
    obtain ⟨h₂, rfl⟩ := List.getElem?_eq_some_iff.mp hsecond
    obtain ⟨h₃, rfl⟩ := List.getElem?_eq_some_iff.mp hthird
    rw [← List.drop_eq_getElem_cons h₃, ← List.drop_eq_getElem_cons h₂,
      ← List.drop_eq_getElem_cons h₁, List.take_append_drop]
  rw [hbuffer, List.flatMap_append, List.flatMap_cons, List.flatMap_cons, List.flatMap_cons]
    at htiles
  obtain ⟨_, -, htiles₁⟩ := htiles.exists_of_append
  obtain ⟨-, -, htiles₂⟩ := htiles₁.of_token
  obtain ⟨-, -, htiles₃⟩ := htiles₂.of_token
  rw [Parser.areAdjacent, Bool.and_eq_true, beq_iff_eq, beq_iff_eq,
    htiles₂.start_eq_iff (x.affiliation_ne_empty hmem₂),
    htiles₃.start_eq_iff (x.affiliation_ne_empty hmem₃)]

/-! ### Cursors side by side -/

/-- Two cursors that stand at the same index and have split the same tokens. -/
structure Beside (x y : Tokenized) (c d : Cursor) : Prop where
  left : c.On x
  right : d.On y
  position_eq : d.position = c.position
  indices_eq : d.splits.map Prod.fst = c.splits.map Prod.fst

namespace Beside

/-- Texts with the same words have the same words from two cursors side by side on. -/
theorem twins (h : c.Beside x y d) (hxy : Twins x.tokens y.tokens) :
    Twins (c.buffer.toList ++ x.tokens.drop c.wholes.length)
      (d.buffer.toList ++ y.tokens.drop d.wholes.length) :=
  h.left.splitsTo.twins h.right.splitsTo hxy h.indices_eq

/-- Cursors side by side are within their texts. -/
theorem within (h : c.Beside x y d) : c.Within x.text ∧ d.Within y.text :=
  ⟨⟨h.left.settled, h.left.text_eq, h.left.settled.position_le_size h.left.onText⟩,
    h.right.settled, h.right.text_eq, h.right.settled.position_le_size h.right.onText⟩

end Beside

/-- The end of the text is ahead of every cursor. -/
theorem On.lt_length (h : c.On x) :
    c.position < (c.buffer.toList ++ x.tokens.drop c.wholes.length).length := by
  rw [List.length_append, List.length_drop, Array.length_toList]
  rcases h.settled.within with hlt | ⟨hposition, hopen⟩
  · omega
  · obtain ⟨later, hlater⟩ := h.isPrefix
    have hlength := congrArg List.length hlater
    rw [List.length_append] at hlength
    cases later with
    | nil =>
      obtain ⟨body, m, -, -, -, htokens⟩ := tokenize_eq_ok x.toExcept_tokenize
      rw [List.append_nil] at hlater
      rw [h.settled.reachedEnd_eq, hlater, htokens, List.getLast?_concat] at hopen
      cases hopen
    | cons t later =>
      rw [List.length_cons] at hlength
      omega

/-- There are words ahead of a settled cursor, and then the end of the text. -/
theorem On.exists_faces (h : c.On x) : ∃ ws, c.Faces x ws := by
  obtain ⟨body, m, -, -, hbody, htokens⟩ := tokenize_eq_ok x.toExcept_tokenize
  have hlast := h.splitsTo.any_getLast?
  have hend : x.tokens.getLast?.any Token.isEnd = true := by
    rw [htokens, List.getLast?_concat]
    rfl
  have hlt := h.lt_length
  have hupcoming := h.upcoming_eq
  have hsplits := h.splitsTo
  rw [hend] at hlast
  generalize c.buffer.toList ++ x.tokens.drop c.wholes.length = all at hlast hlt hupcoming hsplits
  rcases List.eq_nil_or_concat all with rfl | ⟨before, last, rfl⟩
  · cases hlast
  rw [List.concat_eq_append] at hlast hlt hupcoming hsplits
  rw [List.getLast?_concat, Option.any_some] at hlast
  have hmem := hsplits.mem_of_isEnd (List.mem_append_right _ List.mem_cons_self) hlast
  have hstop : last.word = .stop := by
    rw [htokens, List.mem_append, List.mem_singleton] at hmem
    rcases hmem with hmem | rfl
    · rw [hbody last hmem] at hlast
      cases hlast
    · rfl
  rw [List.length_append, List.length_singleton] at hlt
  refine ⟨(before.drop c.position).map Token.word, h, ?_⟩
  rw [hupcoming, List.drop_append_of_le_length (by omega), List.map_append, List.map_singleton,
    hstop]

/-- Looking ahead splits nothing. -/
theorem splits_peekAhead {c c' : Cursor} {n : Nat} {t : Token}
    (h : peekAhead n c = (.ok t, c')) : c'.splits = c.splits := by
  rw [peekAhead_apply] at h
  have hreads := reads_readTokens (c.position + n + 1 - c.buffer.size) c
  generalize readTokens (c.position + n + 1 - c.buffer.size) c = outcome at h hreads
  cases hreads with
  | failed => cases h
  | done hreads =>
    cases h
    exact hreads.splits_eq

namespace Beside

/-- Cursors side by side pass a token both. -/
theorem pastToken (h : c.Beside x y d) {t u : Token} (hend : u.isEnd = t.isEnd)
    (hleft : (c.pastToken t).On x) (hright : (d.pastToken u).On y) :
    (c.pastToken t).Beside x y (d.pastToken u) := by
  refine ⟨hleft, hright, ?_, ?_⟩
  · simp only [Cursor.pastToken, hend]
    split
    · exact h.position_eq
    · exact congrArg (· + 1) h.position_eq
  · simp only [Cursor.pastToken, hend]
    split <;> exact h.indices_eq

/-- Cursors side by side take the first part of a token both. -/
theorem takeHead (h : c.Beside x y d) {t u : Token} {kind : TokenKind}
    (hleft : (c.takeHead t kind).On x) (hright : (d.takeHead u kind).On y) :
    (c.takeHead t kind).Beside x y (d.takeHead u kind) := by
  refine ⟨hleft, hright, ?_, ?_⟩
  · rw [position_takeHead, position_takeHead, h.position_eq]
  · change d.position :: d.splits.map Prod.fst = c.position :: c.splits.map Prod.fst
    rw [h.position_eq, h.indices_eq]

section Moves

variable (hxy : Twins x.tokens y.tokens)
include hxy

/-- Both cursors face the same words. -/
theorem exists_faces (h : c.Beside x y d) : ∃ ws, c.Faces x ws ∧ d.Faces y ws := by
  obtain ⟨ws, hfaces⟩ := h.left.exists_faces
  refine ⟨ws, hfaces, h.right, ?_⟩
  rw [← hfaces.words_eq, h.left.upcoming_eq, h.right.upcoming_eq, List.map_drop, List.map_drop,
    (h.twins hxy).words_eq, h.position_eq]

/-- Cursors side by side find tokens ahead that are the same word. -/
theorem peekAhead_meets (h : c.Beside x y d) (n : Nat) :
    Meets (fun _ _ => False) (fun t u => u.word = t.word) (Beside x y) (peekAhead n c)
      (peekAhead n d) := by
  obtain ⟨ws, hleft, hright⟩ := h.exists_faces hxy
  obtain ⟨t, c', hpeek, hword, hfaces, hposition⟩ := hleft.peekAhead n
  obtain ⟨u, d', hpeek', hword', hfaces', hposition'⟩ := hright.peekAhead n
  rw [hpeek, hpeek']
  refine .ok (hword'.trans hword.symm) ⟨hfaces.on, hfaces'.on, ?_, ?_⟩
  · rw [hposition, hposition', h.position_eq]
  · rw [splits_peekAhead hpeek, splits_peekAhead hpeek', h.indices_eq]

/-- Cursors side by side take tokens that are the same word. -/
theorem advance_meets (h : c.Beside x y d) :
    Meets (fun _ _ => False) (fun t u => u.word = t.word) (Beside x y) (advance c) (advance d) := by
  have hcourse := h.left.settled.advance.course
  have hcourse' := h.right.settled.advance.course
  have hmeets := h.peekAhead_meets hxy 0
  rw [advance_apply] at hcourse hcourse' ⊢
  rw [advance_apply d]
  generalize peekAhead 0 c = first at hmeets hcourse
  generalize peekAhead 0 d = second at hmeets hcourse'
  cases hmeets with
  | refused hrefusal => exact .refused hrefusal
  | @ok t u c' d' hword hbeside =>
    have hend : u.isEnd = t.isEnd := congrArg (·.kind == .endOfInput) hword
    exact .ok hword (hbeside.pastToken hend (hcourse.on h.left) (hcourse'.on h.right))

/-- Cursors side by side take a closing angle both or neither. -/
theorem closing?_meets (h : c.Beside x y d) :
    Meets (fun _ _ => False) (fun t u => u.isSome = t.isSome) (Beside x y) (closing? c)
      (closing? d) := by
  have hcourse := h.left.settled.closing?.course
  have hcourse' := h.right.settled.closing?.course
  have hmeets := h.peekAhead_meets hxy 0
  rw [h.left.settled.closing?_apply] at hcourse ⊢
  rw [h.right.settled.closing?_apply] at hcourse' ⊢
  generalize peekAhead 0 c = first at hmeets hcourse
  generalize peekAhead 0 d = second at hmeets hcourse'
  cases hmeets with
  | refused hrefusal => exact .refused hrefusal
  | @ok t u c' d' hword hbeside =>
    have hkind : u.kind = t.kind := congrArg Word.kind hword
    dsimp only at hcourse hcourse' ⊢
    rw [hkind] at hcourse' ⊢
    by_cases hgreater : t.kind = .greater
    · rw [if_pos hgreater] at hcourse hcourse' ⊢
      rw [if_pos hgreater]
      have hend : u.isEnd = t.isEnd := congrArg (·.kind == .endOfInput) hword
      exact .ok rfl (hbeside.pastToken hend (hcourse.on h.left) (hcourse'.on h.right))
    · rw [if_neg hgreater] at hcourse hcourse' ⊢
      rw [if_neg hgreater]
      cases hafter : t.kind.afterGreater? with
      | none => exact .ok rfl hbeside
      | some kind =>
        rw [hafter] at hcourse hcourse'
        exact .ok rfl (hbeside.takeHead (hcourse.on h.left) (hcourse'.on h.right))

/-- Cursors side by side at a `non-sealed` agree on whether it is in one piece. -/
theorem areAdjacent_eq (h : c.Beside x y d) {t₁ t₂ t₃ u₁ u₂ u₃ : Token}
    (ht : c.AtNonSealed t₁ t₂ t₃) (hu : d.AtNonSealed u₁ u₂ u₃) :
    Parser.areAdjacent u₁ u₂ u₃ = Parser.areAdjacent t₁ t₂ t₃ := by
  have hjoined {x : Tokenized} {c : Cursor} {t₁ t₂ t₃ : Token} (h : c.On x)
      (hat : c.AtNonSealed t₁ t₂ t₃) :
      JoinedAt (c.buffer.toList ++ x.tokens.drop c.wholes.length) c.position ↔
        Parser.areAdjacent t₁ t₂ t₃ = true := by
    have hget {n : Nat} {t : Token} (ht : c.buffer[c.position + n]? = some t) :
        (c.buffer.toList ++ x.tokens.drop c.wholes.length)[c.position + n]? = some t := by
      rw [← Array.getElem?_toList] at ht
      rw [List.getElem?_append_left (List.getElem?_eq_some_iff.mp ht).1, ht]
    have hfirst := hget (n := 0) hat.first_eq
    have hsecond := hget hat.second_eq
    have hthird := hget hat.third_eq
    rw [h.areAdjacent_iff hat]
    constructor
    · rintro ⟨_, _, _, -, hsecond', hthird', -, -, -, hnothing⟩
      cases hsecond'.symm.trans hsecond
      cases hthird'.symm.trans hthird
      exact hnothing
    · intro hnothing
      exact ⟨t₁, t₂, t₃, hfirst, hsecond, hthird, hat.isWord_first, hat.kind_second,
        hat.isWord_third, hnothing⟩
  rw [Bool.eq_iff_iff, ← hjoined h.left ht, ← hjoined h.right hu, h.position_eq]
  exact (h.twins hxy).joined_iff c.position

end Moves

end Beside

/-- Cursors side by side go back to the same index. -/
theorem Beside.restore (h : c.Beside x y d) {n : Nat} (hn : n ≤ c.position) :
    (c.restore n).Beside x y (d.restore n) := by
  have hn' : n ≤ d.position := h.position_eq ▸ hn
  have hleft := (Course.refl h.left.settled hn).restore (Nat.le_refl n) hn
  have hright := (Course.refl h.right.settled hn').restore (Nat.le_refl n) hn'
  refine ⟨hleft.on h.left, hright.on h.right, rfl, ?_⟩
  obtain ⟨-, -, hsplits⟩ := h.left.settled.toWellFormed.restore n
  obtain ⟨-, -, hsplits'⟩ := h.right.settled.toWellFormed.restore n
  have hfilter (splits : List (Nat × Token)) :
      (splits.filter (·.1 < n)).map Prod.fst = (splits.map Prod.fst).filter (· < n) := by
    rw [List.filter_map]
    rfl
  rw [hsplits, hsplits', hfilter, hfilter, h.indices_eq]

/-- What was noted down makes no difference. -/
theorem Beside.withJournal (h : c.Beside x y d) (j k : Array LogEvent) :
    ({ c with journal := j } : Cursor).Beside x y { d with journal := k } :=
  ⟨h.left.withJournal j, h.right.withJournal k, h.position_eq, h.indices_eq⟩

end Cursor

/-- Two texts with the same words as mirrors of each other. Neither is refused by the lexer. -/
def Mirror.between (x y : Tokenized) (hxy : Twins x.tokens y.tokens) : Mirror where
  left := x.text
  right := y.text
  Same := Beside x y
  Match t u := u.word = t.word
  Refusal _ _ := False
  word_eq := id
  within := Beside.within
  position_eq := Beside.position_eq
  peekAhead_meets h n := h.peekAhead_meets hxy n
  advance_meets h := h.advance_meets hxy
  closing?_meets h := h.closing?_meets hxy
  same_restore h _ hn := h.restore hn
  same_withJournal := Beside.withJournal
  areAdjacent_eq h _ _ _ _ _ _ ht hu := h.areAdjacent_eq hxy ht hu

/-- At the start of two texts their cursors match. -/
theorem Cursor.beside_ofText (x y : Tokenized) :
    (ofText x.text x.preferences).Beside x y (ofText y.text y.preferences) :=
  ⟨⟨settled_ofText _ _, over_ofText _ _⟩, ⟨settled_ofText _ _, over_ofText _ _⟩, rfl, rfl⟩

end JavaSyntax
