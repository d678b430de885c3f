import JavaSyntax.Proofs.Lexer.Spelling
import JavaSyntax.Proofs.Lexer.Tiling
import JavaSyntax.Proofs.Token.Reading

/-!
# Split tokens and their undoing

The buffer of a cursor holds the tokens that the lexer delivered, some of them in two
parts, and the log says which. This file relates the two: what the log means, that it
can be undone from its latest entry on, and that splitting changes nothing about the
text that is covered.
-/

namespace JavaSyntax

/-- Whole tokens become the tokens of a buffer by the splits of a log, latest first. Each
entry holds the index at which the parts of a token stand, and that token. -/
inductive SplitsTo (tokens : List Token) : List (Nat × Token) → List Token → Prop
  | whole : SplitsTo tokens [] tokens
  | split {splits : List (Nat × Token)} {pre post : List Token} {t : Token} {kind : TokenKind}
      (h : SplitsTo tokens splits (pre ++ t :: post)) (hkind : t.kind.afterGreater? = some kind) :
      SplitsTo tokens ((pre.length, t) :: splits)
        (pre ++ t.greaterHead :: t.greaterTail kind :: post)

/-- The indices of a log grow from its oldest entry to its latest, which comes first. -/
abbrev Ordered (splits : List (Nat × Token)) : Prop := splits.Pairwise fun a b => b.1 < a.1

/-! ### Parts of a token -/

/-- What remains of an operator is an operator, spelt without the first `>`. -/
theorem TokenKind.symbol?_of_afterGreater? {kind rest : TokenKind}
    (h : kind.afterGreater? = some rest) :
    ∃ text, rest.symbol? = some text ∧ kind.symbol? = some (">" ++ text) := by
  cases kind <;> cases h <;> exact ⟨_, rfl, by decide +kernel⟩

/-- The end of the text is neither split nor what remains of a split. -/
theorem TokenKind.ne_endOfInput_of_afterGreater? {kind rest : TokenKind}
    (h : kind.afterGreater? = some rest) : kind ≠ .endOfInput ∧ rest ≠ .endOfInput := by
  cases kind <;> cases h <;> exact ⟨nofun, nofun⟩

namespace Token

variable {t : Token} {kind : TokenKind}

/-- A token that can be split is not the end. -/
theorem isEnd_of_afterGreater? (hkind : t.kind.afterGreater? = some kind) : t.isEnd = false :=
  beq_false_of_ne (TokenKind.ne_endOfInput_of_afterGreater? hkind).1

/-- A token that can be split is spelt `>` and then as what remains of it. -/
theorem Spelt.source_eq (h : t.Spelt) (hkind : t.kind.afterGreater? = some kind) :
    ∃ text, kind.symbol? = some text ∧ t.source = ">" ++ text ∧
      (t.greaterTail kind).source = text := by
  obtain ⟨text, htext, hsymbol⟩ := TokenKind.symbol?_of_afterGreater? hkind
  have hsource := h _ hsymbol
  refine ⟨text, htext, hsource, ?_⟩
  simp [greaterTail, hsource, String.toList_append]

/-- The `>` that is split off is spelt as its kind demands. -/
theorem spelt_greaterHead (t : Token) : t.greaterHead.Spelt := by
  intro text htext
  cases htext
  rfl

/-- What remains of a token is spelt as its kind demands. -/
theorem Spelt.greaterTail (h : t.Spelt) (hkind : t.kind.afterGreater? = some kind) :
    (t.greaterTail kind).Spelt := by
  obtain ⟨text, hsymbol, _, hsource⟩ := h.source_eq hkind
  intro text' htext'
  rw [hsource]
  exact Option.some.inj (hsymbol.symm.trans htext')

end Token

/-! ### The buffer and the log -/

namespace SplitsTo

variable {tokens more buffer buffer' : List Token} {splits : List (Nat × Token)}

/-- Tokens that are delivered later come at the end of the buffer. -/
theorem append (h : SplitsTo tokens splits buffer) (more : List Token) :
    SplitsTo (tokens ++ more) splits (buffer ++ more) := by
  induction h with
  | whole => exact .whole
  | split h hkind ih =>
    simp only [List.append_assoc, List.cons_append] at ih ⊢
    exact .split ih hkind

/-- The log determines the buffer. -/
theorem unique (h : SplitsTo tokens splits buffer) (h' : SplitsTo tokens splits buffer') :
    buffer = buffer' := by
  induction h generalizing buffer' with
  | whole =>
    cases h'
    rfl
  | @split splits pre post t kind h hkind ih =>
    generalize hindex : pre.length = index at h'
    cases h' with
    | @split _ pre' post' _ kind' h' hkind' =>
      obtain ⟨rfl, htail⟩ := List.append_inj (ih h') hindex
      cases htail
      cases hkind.symm.trans hkind'
      rfl

/-- With the same log, more tokens make the buffer longer and change nothing else. -/
theorem isPrefix (h : SplitsTo tokens splits buffer)
    (h' : SplitsTo (tokens ++ more) splits buffer') : buffer <+: buffer' := by
  rw [← (h.append more).unique h']
  exact List.prefix_append _ _

/-- Each split makes the buffer longer by one token. -/
theorem length_eq (h : SplitsTo tokens splits buffer) :
    buffer.length = tokens.length + splits.length := by
  induction h with
  | whole => rfl
  | split h hkind ih =>
    simp only [List.length_append, List.length_cons] at ih ⊢
    omega

/-- Whether the end of the text has been read does not depend on the splits. -/
theorem any_getLast? (h : SplitsTo tokens splits buffer) :
    buffer.getLast?.any Token.isEnd = tokens.getLast?.any Token.isEnd := by
  induction h with
  | whole => rfl
  | @split splits pre post t kind h hkind ih =>
    rw [← ih]
    cases post with
    | cons => simp
    | nil =>
      obtain ⟨ht, hkind'⟩ := TokenKind.ne_endOfInput_of_afterGreater? hkind
      simp [Token.isEnd, Token.greaterTail, beq_false_of_ne ht, beq_false_of_ne hkind']

/-- The end of the text is no part of a split token. -/
theorem mem_of_isEnd (h : SplitsTo tokens splits buffer) {t : Token} (ht : t ∈ buffer)
    (hend : t.isEnd = true) : t ∈ tokens := by
  induction h with
  | whole => exact ht
  | @split splits pre post u kind h hkind ih =>
    apply ih
    simp only [List.mem_append, List.mem_cons] at ht ⊢
    rcases ht with ht | rfl | rfl | ht
    · exact .inl ht
    · cases hend
    · have hne := (TokenKind.ne_endOfInput_of_afterGreater? hkind).2
      exact absurd (by simpa [Token.isEnd, Token.greaterTail] using hend) hne
    · exact .inr (.inr ht)

/-- All tokens of a buffer are spelt as their kinds demand if the whole ones are. -/
theorem spelt (h : SplitsTo tokens splits buffer) (hspelt : ∀ t ∈ tokens, t.Spelt) :
    ∀ t ∈ buffer, t.Spelt := by
  induction h with
  | whole => exact hspelt
  | @split splits pre post t kind h hkind ih =>
    intro u hu
    simp only [List.mem_append, List.mem_cons] at hu ih
    rcases hu with hu | rfl | rfl | hu
    · exact ih u (.inl hu)
    · exact t.spelt_greaterHead
    · exact (ih t (.inr (.inl rfl))).greaterTail hkind
    · exact ih u (.inr (.inr hu))

/-- Splitting keeps the text that the tokens spell. -/
theorem reconstruct_eq (h : SplitsTo tokens splits buffer) (hspelt : ∀ t ∈ tokens, t.Spelt) :
    reconstruct buffer = reconstruct tokens := by
  induction h with
  | whole => rfl
  | @split splits pre post t kind h hkind ih =>
    obtain ⟨text, _, hsource, htail⟩ := (h.spelt hspelt t (by simp)).source_eq hkind
    rw [← ih, ← joined_flatMap_fragments, ← joined_flatMap_fragments]
    simp only [List.flatMap_append, List.flatMap_cons, joined_append, Token.joined_fragments]
    have hparts : t.greaterHead.fullText ++ (t.greaterTail kind).fullText = t.fullText := by
      simp only [Token.fullText, htail, hsource]
      simp [Token.greaterHead, Token.greaterTail, String.append_assoc]
    rw [← hparts]
    simp only [String.append_assoc]

/-- Splitting keeps the tokens' spans contiguous, each over its own text. -/
theorem tiles {text rest : String} {stop : Nat} (h : SplitsTo tokens splits buffer)
    (hspelt : ∀ t ∈ tokens, t.Spelt) (htext : text = reconstruct tokens ++ rest)
    (htiles : Tiles text 0 (tokens.flatMap Token.fragments) stop) :
    Tiles text 0 (buffer.flatMap Token.fragments) stop := by
  induction h with
  | whole => exact htiles
  | @split splits pre post t kind h hkind ih =>
    obtain ⟨tail, _, hsource, htail⟩ := (h.spelt hspelt t (by simp)).source_eq hkind
    have hhead : t.greaterHead.fragments =
        t.affiliations.map Affiliation.fragment ++ [⟨⟨t.span.start, t.secondPosition⟩, ">"⟩] := rfl
    have hback : (t.greaterTail kind).fragments = [⟨⟨t.secondPosition, t.span.stop⟩, tail⟩] := by
      rw [← htail]
      rfl
    have hwhole : (pre ++ t :: post).flatMap Token.fragments =
        (pre.flatMap Token.fragments ++ t.affiliations.map Affiliation.fragment) ++
          ⟨t.span, ">" ++ tail⟩ :: post.flatMap Token.fragments := by
      simp [Token.fragments, hsource]
    have hparts : (pre ++ t.greaterHead :: t.greaterTail kind :: post).flatMap Token.fragments =
        (pre.flatMap Token.fragments ++ t.affiliations.map Affiliation.fragment) ++
          ⟨⟨t.span.start, t.secondPosition⟩, ">"⟩ ::
          ⟨⟨t.secondPosition, t.span.stop⟩, tail⟩ :: post.flatMap Token.fragments := by
      simp [hhead, hback]
    rw [← h.reconstruct_eq hspelt, ← joined_flatMap_fragments] at htext
    rw [hwhole] at ih htext
    rw [hparts]
    exact ih.cut htext rfl

/-! ### Undoing -/

/-- Undoing the latest split gives the buffer that the other splits lead to. -/
theorem undoSplit {index : Nat} {t : Token} (h : SplitsTo tokens ((index, t) :: splits) buffer) :
    ∃ buffer', Cursor.undoSplit buffer.toArray index t = buffer'.toArray ∧
      SplitsTo tokens splits buffer' ∧ index < buffer'.length := by
  cases h with
  | @split _ pre post _ kind h hkind =>
    refine ⟨pre ++ t :: post, ?_, h, by simp⟩
    have herase : (pre ++ t.greaterHead :: t.greaterTail kind :: post).eraseIdx (pre.length + 1) =
        pre ++ t.greaterHead :: post := by
      rw [List.eraseIdx_append_of_length_le (by omega)]
      simp
    simp [Cursor.undoSplit, herase]

/-- Going back to an index undoes the splits there and after it, and no other. What stood
at the index or before it still does. -/
theorem undoSplits (h : SplitsTo tokens splits buffer) (hordered : Ordered splits) (saved : Nat) :
    ∃ buffer', Cursor.undoSplits buffer.toArray saved splits =
        (buffer'.toArray, splits.filter (·.1 < saved)) ∧
      SplitsTo tokens (splits.filter (·.1 < saved)) buffer' ∧
      ∀ i ≤ saved, i < buffer.length → i < buffer'.length := by
  induction splits generalizing buffer with
  | nil => exact ⟨buffer, rfl, h, fun i _ hi => hi⟩
  | cons entry splits ih =>
    obtain ⟨index, t⟩ := entry
    obtain ⟨hlatest, hrest⟩ := List.pairwise_cons.mp hordered
    rw [Cursor.undoSplits]
    by_cases hindex : index < saved
    · have hkept : ((index, t) :: splits).filter (·.1 < saved) = (index, t) :: splits := by
        rw [List.filter_eq_self]
        intro entry hentry
        rcases List.mem_cons.mp hentry with rfl | hentry
        · simpa using hindex
        · have := hlatest entry hentry
          simp only [decide_eq_true_eq]
          omega
      rw [if_pos hindex, hkept]
      exact ⟨buffer, rfl, h, fun i _ hi => hi⟩
    · obtain ⟨buffer', hundo, h', hlength⟩ := h.undoSplit
      rw [if_neg hindex, hundo, List.filter_cons_of_neg (by simpa using hindex)]
      obtain ⟨buffer'', hundo', h'', hkept⟩ := ih h' hrest
      refine ⟨buffer'', hundo', h'', ?_⟩
      intro i hi _
      exact hkept i hi (by omega)

/-- Without splits the buffer holds the tokens as they were delivered. -/
theorem eq_of_nil (h : SplitsTo tokens [] buffer) : buffer = tokens := by
  cases h
  rfl

/-- The parts of the token that was split last stand where the log says. -/
theorem getElem?_latest {index : Nat} {t : Token}
    (h : SplitsTo tokens ((index, t) :: splits) buffer) : buffer[index]? = some t.greaterHead := by
  cases h
  simp

/-- What is inserted behind an element stands behind it. -/
private theorem insertIdx_after {α : Type} (pre post : List α) (a b : α) :
    (pre ++ a :: post).insertIdx (pre.length + 1) b = pre ++ a :: b :: post := by
  induction pre with
  | nil => simp
  | cons x pre ih => simpa using ih

/-- Replacing a token by its parts is one more split. -/
theorem replaceByParts {index : Nat} {t : Token} {kind : TokenKind}
    (h : SplitsTo tokens splits buffer) (ht : buffer[index]? = some t)
    (hkind : t.kind.afterGreater? = some kind) :
    ∃ buffer', Cursor.replaceByParts buffer.toArray index t.greaterHead (t.greaterTail kind) =
        buffer'.toArray ∧
      SplitsTo tokens ((index, t) :: splits) buffer' := by
  obtain ⟨hindex, rfl⟩ := List.getElem?_eq_some_iff.mp ht
  have hbuffer : buffer = buffer.take index ++ buffer[index] :: buffer.drop (index + 1) := by
    simp
  generalize buffer[index] = t at hbuffer hkind
  have hlength : (buffer.take index).length = index := by simp; omega
  generalize buffer.take index = pre at hbuffer hlength
  generalize buffer.drop (index + 1) = post at hbuffer
  subst hbuffer hlength
  refine ⟨_, ?_, h.split hkind⟩
  simp [Cursor.replaceByParts, insertIdx_after]

end SplitsTo

end JavaSyntax
