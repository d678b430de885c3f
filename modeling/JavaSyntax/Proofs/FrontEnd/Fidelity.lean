import JavaSyntax.Proofs.FrontEnd.RoundTrip
import JavaSyntax.Proofs.Grammar.DeclarationNodes

/-!
# Trees are faithful to their texts

Whatever a text is parsed as, every node of the tree has the text under its span as its
source, starts and ends with tokens, holds its children without overlap, and groups its
operands as it should. The outermost node covers all tokens of the text, and each rule of a
switch has the arrow that belongs to it.
-/

namespace JavaSyntax

open Work

/-! ### At the end of the text -/

/-- The text of what stands before a token. -/
def Token.leadingText (t : Token) : String := String.join (t.affiliations.map (·.text))

/-- Splitting leaves what stands before the first token where it is. -/
theorem SplitsTo.leadingText_head? {tokens buffer : List Token} {splits : List (Nat × Token)}
    (h : SplitsTo tokens splits buffer) :
    buffer.head?.map Token.leadingText = tokens.head?.map Token.leadingText := by
  induction h with
  | whole => rfl
  | @split splits pre post t kind h hkind ih =>
    rw [← ih]
    cases pre with
    | nil => rfl
    | cons => rfl

/-- There is no text between a place and itself. -/
theorem textBetween_self (text : String) (n : Nat) : textBetween text n n = "" := by
  unfold textBetween
  cases hpos : text.pos? ⟨n⟩ with
  | none => rfl
  | some p =>
    simp only [Nat.le_refl, if_true]
    apply String.toByteArray_inj.mp
    rw [String.toByteArray_extract]
    simp

/-- Tiles that end with a token stop where it does. -/
theorem Tiles.stop_eq_of_getLast? {text : String} {ts : List Token} {start stop : Nat}
    (h : Tiles text start (ts.flatMap Token.fragments) stop) {last : Token}
    (hlast : ts.getLast? = some last) : stop = last.span.stop.offset := by
  obtain ⟨front, rfl⟩ : ∃ front, ts = front ++ [last] := List.getLast?_eq_some_iff.mp hlast
  rw [List.flatMap_append, List.flatMap_singleton] at h
  obtain ⟨b, -, hb⟩ := h.exists_of_append
  obtain ⟨d, -, hd⟩ := hb.exists_of_append
  cases hd with
  | cons _ _ htail => simpa using htail.stop_eq

namespace Cursor.On

variable {x : Tokenized} {c : Cursor} {t : Token}

/-- A cursor at the end of the text has passed everything else. -/
theorem buffer_eq (h : c.On x) (ht : c.buffer[c.position]? = some t) (hend : t.isEnd = true) :
    c.buffer.toList = c.passed ++ [t] := by
  rw [← Array.getElem?_toList] at ht
  obtain ⟨hlt, -⟩ := List.getElem?_eq_some_iff.mp ht
  have hlast : c.position + 1 = c.buffer.toList.length := by
    rcases Nat.lt_or_eq_of_le (Nat.succ_le_of_lt hlt) with hbefore | heq
    · have hmem : t ∈ c.buffer.toList.dropLast := by
        refine List.mem_of_getElem? (i := c.position) ?_
        rw [List.getElem?_dropLast, if_pos (by omega), ht]
      rw [h.onText.isEnd_dropLast t hmem] at hend
      cases hend
    · exact heq
  calc c.buffer.toList
      = c.buffer.toList.take (c.position + 1) := by rw [hlast, List.take_length]
    _ = c.passed ++ [t] := by rw [List.take_add_one, ht]; rfl

/-- The text is what the cursor has passed and the end of the text. -/
theorem text_eq_reconstruct (h : c.On x) (ht : c.buffer[c.position]? = some t)
    (hend : t.isEnd = true) : x.text = reconstruct (c.passed ++ [t]) := by
  have hbuffer := h.buffer_eq ht hend
  rw [← hbuffer, h.settled.splitsTo.reconstruct_eq h.spelt, h.wholes_eq (by simp [hbuffer]) hend]
  exact (tiles_of_tokenize x.toExcept_tokenize).2.symm

/-- The tokens of a text start with what the cursor has passed first and end with the end,
which is empty. -/
theorem exists_tokens_eq (h : c.On x) (ht : c.buffer[c.position]? = some t)
    (hend : t.isEnd = true) :
    ∃ body, x.tokens = body ++ [t] ∧ t.source = "" ∧ t.span = .point t.span.start ∧
      body.head?.elim "" Token.leadingText = c.passed.head?.elim "" Token.leadingText := by
  have hbuffer := h.buffer_eq ht hend
  have hmem : t ∈ c.buffer.toList := by simp [hbuffer]
  have hwholes := h.wholes_eq hmem hend
  obtain ⟨body, m, -, -, hbody, htokens⟩ := tokenize_eq_ok x.toExcept_tokenize
  have hin := h.settled.splitsTo.mem_of_isEnd hmem hend
  rw [hwholes, htokens, List.mem_append, List.mem_singleton] at hin
  have hlast : t = m.endToken := by
    rcases hin with hin | heq
    · rw [hbody t hin] at hend
      cases hend
    · exact heq
  refine ⟨body, by rw [htokens, hlast], by rw [hlast]; rfl, by rw [hlast]; rfl, ?_⟩
  have hhead := h.settled.splitsTo.leadingText_head?
  have hlength := h.settled.splitsTo.length_eq
  rw [hbuffer, hwholes, htokens] at hhead hlength
  cases hpassed : c.passed with
  | nil =>
    rw [hpassed] at hlength
    simp only [List.length_append, List.length_nil, List.length_singleton] at hlength
    have hnil : body = [] := List.eq_nil_of_length_eq_zero (by omega)
    rw [hnil]
  | cons u us =>
    rw [hpassed] at hhead
    cases body with
    | cons v vs => exact (Option.some.inj hhead).symm
    | nil =>
      -- The end of the text has no parts, so nothing could have been passed.
      have hu : u ∈ c.passed := by simp [hpassed]
      obtain ⟨w, hw, -, hpart⟩ := h.exists_partOf (h.mem_buffer hu)
      rw [htokens, List.nil_append, List.mem_singleton] at hw
      have hopen := h.isEnd_eq_false hu
      rw [hpart.eq_of_isEnd (by rw [hw]; rfl), hw] at hopen
      cases hopen

/-- A node that covers what the cursor has passed parts the text in three. -/
theorem text_eq_of_covers (h : c.On x) (ht : c.buffer[c.position]? = some t)
    (hend : t.isEnd = true) {p : Part} (hsource : p.source = p.span.slice x.text)
    (hcovers : Covers p c.passed) :
    x.text = c.passed.head?.elim "" Token.leadingText ++ p.source ++ t.leadingText := by
  obtain ⟨body, -, hempty, -, -⟩ := h.exists_tokens_eq ht hend
  have htext := h.text_eq_reconstruct ht hend
  have htiles := h.tiles
  rw [h.buffer_eq ht hend, List.flatMap_append] at htiles
  obtain ⟨stop, htiles, -⟩ := htiles.exists_of_append
  obtain ⟨hstart, hstop⟩ := hcovers
  cases hpassed : c.passed with
  | nil =>
    rw [hpassed] at hstart
    cases hstart
  | cons first rest =>
    rw [hpassed] at htext htiles hstart hstop
    obtain ⟨last, hlast, hlastStop⟩ := Option.map_eq_some_iff.mp hstop
    have hlastOffset := htiles.stop_eq_of_getLast? hlast
    -- What stands before the first token ends where the node starts, and the rest ends with it.
    have hown : (first :: rest).flatMap Token.fragments =
        first.affiliations.map Affiliation.fragment ++
          (⟨first.span, first.source⟩ :: rest.flatMap Token.fragments) := by
      simp [Token.fragments]
    rw [hown] at htiles
    obtain ⟨middle, hbefore, hnode⟩ := htiles.exists_of_append
    have hleading : joined (first.affiliations.map Affiliation.fragment) = first.leadingText := by
      simp [joined, Token.leadingText, Affiliation.fragment, Function.comp_def]
    generalize hfs : (⟨first.span, first.source⟩ : Fragment) :: rest.flatMap Token.fragments = fs
      at hown hnode
    have hstartOffset : middle = p.span.start.offset := by
      rw [← hfs] at hnode
      cases hnode
      rw [← Option.some.inj hstart]
    have hfirst := hbefore.stop_eq
    have hrest := hnode.stop_eq
    rw [hleading] at hfirst
    have hparted : x.text = first.leadingText ++ joined fs ++ t.leadingText := by
      rw [htext, ← joined_flatMap_fragments, List.flatMap_append, joined_append, hown,
        joined_append, hleading, joined_flatMap_fragments]
      simp [reconstruct, hempty, show t.fullText = t.leadingText ++ t.source from rfl]
    have hslice := textBetween_append first.leadingText (joined fs) t.leadingText
    rw [String.utf8ByteSize_append, ← hparted] at hslice
    have hjoined : p.source = joined fs := by
      rw [hsource, Span.slice, ← hslice, ← hlastStop]
      congr 1 <;> omega
    rw [hjoined]
    exact hparted

end Cursor.On

/-! ### The outermost node -/

/-- A compilation unit without anything in it. -/
def Part.IsEmptyUnit (p : Part) : Prop :=
  ∃ span source, p = ⟨.compilationUnit, .located (.compilationUnit .absent .nil .nil .absent)
    span source⟩

/-- An empty unit has no children. -/
theorem Part.IsEmptyUnit.children_eq {p : Part} (h : p.IsEmptyUnit) : p.children = [] := by
  obtain ⟨span, source, rfl⟩ := h
  rfl

/-- An empty unit has no part but itself. -/
theorem Part.IsEmptyUnit.eq_of_within {p q : Part} (h : p.IsEmptyUnit) (hq : Within q p) :
    q = p := by
  cases hq with
  | refl => rfl
  | child hchild _ =>
    rw [h.children_eq] at hchild
    cases hchild

/-- A node is faithful to a text and covers all of its tokens, or there are none. -/
inductive Part.IsRoot (x : Tokenized) (c : Cursor) (last : Token) (p : Part) : Prop
  | whole (hfaithful : p.Faithful x) (hcovers : Covers p c.passed)
  | empty (hunit : p.IsEmptyUnit) (hspan : p.span = .point last.span.start)
      (hsource : p.source = p.span.slice x.text) (hpassed : c.passed = [])

namespace Parser

variable {x : Tokenized} {s s' : ParserState} {α : Type} {p : Parser α} {a : α}

/-- A production that takes the whole text stops in front of its end. -/
theorem exists_isEnd_of_wholly_run (hp : Production .free p) (hs : s.cursor.On x)
    (h : p.wholly s = (.ok a, s')) :
    ∃ s₁ t, p s = (.ok a, s₁) ∧ s₁.cursor.On x ∧ Stretch x s₁.cursor [] [] .fresh s'.cursor ∧
      Cursor.peekAhead 0 s₁.cursor = (.ok t, s'.cursor) ∧ t.isEnd = true := by
  obtain ⟨a', s₁, hok, h⟩ := bind_eq_ok h
  obtain ⟨u, s₂, hend, h⟩ := bind_eq_ok h
  cases h
  obtain ⟨t, s₃, hpeek, hend⟩ := bind_eq_ok hend
  have hcourse := (hp.runs hs.settled trivial).course
  rw [hok] at hcourse
  have hs₁ : s₁.cursor.On x := hcourse.on hs
  cases ht : t.isEnd with
  | false =>
    rw [ht] at hend
    exact absurd (congrArg Prod.fst hend) (unexpected_ne_ok _ _ _)
  | true =>
    rw [ht] at hend
    cases hend
    have hpeek := peek_eq_ok hpeek
    exact ⟨s₁, t, hok, hs₁, .peekAhead hs₁ hpeek, hpeek, ht⟩

end Parser

/-- From the start of a text to its end, a production makes the outermost node. -/
def Roots {f : Form} (p : Parser (Node f)) : Prop :=
  ∀ {x : Tokenized} {s s₁ s' : ParserState} {t : Token} {n : Node f}, s.cursor.On x →
    s.cursor.passed = [] → p s = (.ok n, s₁) → Stretch x s₁.cursor [] [] .fresh s'.cursor →
    Cursor.peekAhead 0 s₁.cursor = (.ok t, s'.cursor) → Part.IsRoot x s'.cursor t ⟨f, n⟩

/-- A node that covers what was read from the start is the outermost one, if nothing is left. -/
theorem isRoot_of_stretch {x : Tokenized} {f : Form} {n : Node f} {c c₁ c' : Cursor}
    {ts : List Token} {t : Token} (hc : c.On x) (hpassed : c.passed = [])
    (h : Stretch x c ts n.parts (.covering n) c₁) (h' : Stretch x c₁ [] [] .fresh c') :
    Part.IsRoot x c' t ⟨f, n⟩ := by
  have hall := h.trans hc h'
  have hts := hall.passed_eq
  rw [hpassed, List.nil_append] at hts
  refine .whole (h.fits.faithful _ (by simp)) ?_
  rw [hts, List.append_nil]
  exact h.holds.2

/-- A production that makes nodes for all texts makes outermost ones where it reads whole texts. -/
theorem roots_of_yields {f : Form} {p : Parser (Node f)}
    (hp : ∀ x, Yields x p Effect.covering) : Roots p := by
  intro x s s₁ s' t n hs hpassed hrun hstretch _
  obtain ⟨ts, hts⟩ := (hp x).run hs hrun
  exact isRoot_of_stretch hs hpassed hts hstretch

/-- A compilation unit is an outermost node, and the only one that may be empty. -/
theorem roots_compilationUnit : Roots grammar.compilationUnit := by
  intro x s s₁ s' t n hs hpassed hrun hstretch hpeek
  rcases Grammar.compilationUnit_run hs hrun with ⟨ts, hts⟩ | ⟨hinner, hspan, hsource, hfresh⟩
  · exact isRoot_of_stretch hs hpassed hts hstretch
  have hlooking : Production .looking grammar.compilationUnit := inferInstance
  have hlooked := (hlooking.runs hs.settled trivial).looked rfl
  rw [hrun] at hlooked
  have hzero : s.cursor.position = 0 := by rw [← hs.settled.length_passed, hpassed]; rfl
  have hstill : s₁.cursor.position = 0 := by rw [hfresh.position_eq hs, hzero]; rfl
  obtain ⟨u, hu⟩ : ∃ u, s₁.cursor.buffer[0]? = some u := by
    rw [hzero] at hlooked
    exact ⟨_, Array.getElem?_eq_getElem (hlooked n rfl)⟩
  -- The token that was looked at is the end of the text.
  have hagain := Cursor.peekAhead_zero (c := s₁.cursor) (t := u) (by rw [hstill]; exact hu)
  rw [hpeek] at hagain
  obtain ⟨ht, hcursor⟩ := Prod.mk.inj hagain
  obtain rfl := Except.ok.inj ht
  have hpoint : n.span = .point t.span.start := by
    rw [hspan, hzero]
    simp [Cursor.spanFrom, Cursor.previous, hu, hstill]
  refine .empty ?_ hpoint ?_ ?_
  · cases n with
    | located tree span source =>
      cases hinner
      exact ⟨span, source, rfl⟩
  · change n.source = n.span.slice x.text
    rw [hsource, Cursor.sourceText, (hfresh.on hs).text_eq]
  · rw [hcursor, hfresh.passed_eq, hpassed]
    rfl

/-- The production of every mode makes outermost nodes. -/
theorem ParseMode.roots_root (mode : ParseMode) : Roots mode.root := by
  cases mode with
  | compilationUnit => exact roots_compilationUnit
  | statement => exact roots_of_yields fun x => inferInstanceAs (Yields x grammar.statement _)
  | expression => exact roots_of_yields fun x => inferInstanceAs (Yields x grammar.expression _)
  | type => exact roots_of_yields fun x => inferInstanceAs (Yields x grammar.type _)

namespace FrontEnd

variable {text : String} {mode : ParseMode} {lexical : LexicalPreferences}
  {preferences : SyntaxPreferences}

/-- A tree that a parse returns was made by the production of its mode from the start of a text
which can be split into tokens. -/
theorem exists_run {n : Node mode.form}
    (h : (parse text mode lexical preferences).evaluate = .ok n) :
    ∃ (x : Tokenized) (s s' : ParserState), x.text = text ∧ x.preferences = lexical ∧
      s.cursor.On x ∧ s.cursor.passed = [] ∧ mode.root.wholly s = (.ok n, s') := by
  obtain ⟨name, hparser⟩ := mode.exists_parser_eq
  change ((mode.parser (.ofText text lexical preferences)).1.mapError FrontEndError.ofSyntax) =
    .ok n at h
  have hentry : (Parser.entry name mode.root (.ofText text lexical preferences)).1 = .ok n := by
    rw [hparser] at h
    generalize (Parser.entry name mode.root (.ofText text lexical preferences)).1 = result at h
    cases result with
    | error e => cases h
    | ok a =>
      cases h
      rfl
  let x : Tokenized := ⟨text, lexical, Parser.tokenize_of_entry mode.production_root hentry⟩
  rw [Parser.entry_apply] at hentry
  generalize hstart : (ParserState.ofText text lexical preferences).pushContext name = s at hentry
  have hcursor := (Parser.pushContext_eq name (.ofText text lexical preferences)).1
  rw [hstart] at hcursor
  have hs : s.cursor.On x := by
    rw [hcursor]
    exact Cursor.On.withJournal
      ⟨Cursor.settled_ofText text lexical, Cursor.over_ofText text lexical⟩ _
  have hpassed : s.cursor.passed = [] := by
    rw [hcursor]
    rfl
  exact ⟨x, s, _, rfl, rfl, hs, hpassed, Prod.ext hentry rfl⟩

/-- A tree that a parse returns is that of a text which can be split into tokens. -/
theorem exists_isRoot {n : Node mode.form}
    (h : (parse text mode lexical preferences).evaluate = .ok n) :
    ∃ (x : Tokenized) (c : Cursor) (t : Token), x.text = text ∧ x.preferences = lexical ∧
      c.On x ∧ c.buffer[c.position]? = some t ∧ t.isEnd = true ∧ Part.IsRoot x c t ⟨_, n⟩ := by
  obtain ⟨x, s, s', htext, hpreferences, hs, hpassed, hrun⟩ := exists_run h
  obtain ⟨s₁, t, hok, hs₁, hstretch, hpeek, hend⟩ :=
    Parser.exists_isEnd_of_wholly_run mode.production_root hs hrun
  exact ⟨x, _, t, htext, hpreferences, hstretch.on hs₁, hs₁.settled.getElem?_current hpeek, hend,
    mode.roots_root hs hpassed hok hstretch hpeek⟩

/-- Whatever a text is parsed as, the nodes of the tree are faithful to it: the source of each
is the text under its span, it starts and ends with tokens, it is empty only if it is a
compilation unit without anything in it, and it holds its children, none of which reaches into
another. The outermost node has everything but what stands before the first token and before
the end of the text. -/
theorem parse_nodes_faithful {n : Node mode.form}
    (h : (parse text mode lexical preferences).evaluate = .ok n) :
    ∃ body last, (tokenize text lexical).toExcept = .ok (body ++ [last]) ∧ last.isEnd = true ∧
      text = body.head?.elim "" Token.leadingText ++ n.source ++ last.leadingText ∧
      ∀ p, Part.Within p ⟨mode.form, n⟩ →
        p.source = p.span.slice text ∧
        (∃ t ∈ body ++ [last], p.span.start = t.span.start) ∧
        (∃ t ∈ body ++ [last], t.StopsAt p.span.stop) ∧
        (p.span.isEmpty = true → p.IsEmptyUnit) ∧
        (∀ q ∈ p.children, p.span.containsSpan q.span = true) ∧
        p.children.Pairwise Part.Apart := by
  obtain ⟨x, c, t, rfl, rfl, hc, ht, hend, hroot⟩ := exists_isRoot h
  obtain ⟨body, htokens, hempty, hpoint, hhead⟩ := hc.exists_tokens_eq ht hend
  refine ⟨body, t, ?_, hend, ?_, ?_⟩
  · rw [x.toExcept_tokenize, htokens]
  · rw [hhead]
    cases hroot with
    | whole hfaithful hcovers =>
      exact hc.text_eq_of_covers (p := ⟨mode.form, n⟩) ht hend hfaithful.sound.source_eq hcovers
    | empty hunit hspan hsource hpassed =>
      have hnothing : n.source = "" := by
        rw [show n.source = _ from hsource, hspan]
        exact textBetween_self _ _
      rw [hpassed, hnothing, hc.text_eq_reconstruct ht hend, hpassed]
      simp [reconstruct, hempty, show t.fullText = t.leadingText ++ t.source from rfl]
  · intro p hp
    rw [← htokens]
    cases hroot with
    | whole hfaithful hcovers =>
      have hsound := hfaithful p hp
      have hnonempty := hsound.nonempty
      refine ⟨hsound.source_eq, hsound.start_eq, hsound.stopsAt, ?_, hsound.contains, hsound.apart⟩
      intro hisEmpty
      have := beq_iff_eq.mp hisEmpty
      omega
    | empty hunit hspan hsource hpassed =>
      obtain rfl := hunit.eq_of_within hp
      have hmem : t ∈ x.tokens := by simp [htokens]
      have hstops : t.StopsAt (Span.point t.span.start).stop := .inl (congrArg Span.stop hpoint).symm
      rw [hunit.children_eq, hspan]
      rw [hspan] at hsource
      refine ⟨hsource, ⟨t, hmem, rfl⟩, ⟨t, hmem, hstops⟩, fun _ => hunit, ?_, .nil⟩
      intro q hq
      cases hq

/-- A parse can be described by what can be computed of its tree. -/
theorem exists_parse_of_view {α : Type} {view : Node mode.form → α} {a : α}
    (h : (parse text mode).evaluate.toOption.map view = some a) :
    ∃ n, (parse text mode).evaluate = .ok n ∧ view n = a := by
  cases hparse : (parse text mode).evaluate with
  | error e =>
    rw [hparse] at h
    cases h
  | ok n =>
    rw [hparse] at h
    exact ⟨n, rfl, Option.some.inj h⟩

/-- A type whose argument ends in the middle of a token. -/
theorem parse_nodes_faithful_in_shift :
    ∃ n : Node .type, (parse " A<B<C>> " .type).evaluate = .ok n ∧ n.source = "A<B<C>>" ∧
      ∃ body last, (tokenize " A<B<C>> " {}).toExcept = .ok (body ++ [last]) ∧
        " A<B<C>> " = body.head?.elim "" Token.leadingText ++ n.source ++ last.leadingText ∧
        ∃ p ∈ Part.children ⟨.type, n⟩, p.source = "B<C>" ∧ p.span.stop.offset = 7 ∧
          ∃ t ∈ body ++ [last], t.StopsAt p.span.stop := by
  have hview : (parse " A<B<C>> " .type).evaluate.toOption.map
      (fun n : Node (ParseMode.form .type) => (n.source,
        (Part.children ⟨.type, n⟩).map fun p => (p.source, p.span.stop.offset))) =
        some ("A<B<C>>", [("B<C>", 7)]) := by decide +kernel
  obtain ⟨n, hparse, hn⟩ := exists_parse_of_view hview
  obtain ⟨hsource, hchildren⟩ := Prod.mk.inj hn
  obtain ⟨body, last, htokens, -, htext, hnodes⟩ := parse_nodes_faithful hparse
  obtain ⟨p, hp, heq⟩ : ∃ p ∈ Part.children ⟨.type, n⟩, (p.source, p.span.stop.offset) =
      ("B<C>", 7) := List.mem_map.mp (hchildren ▸ List.mem_singleton_self _)
  obtain ⟨hpsource, hpstop⟩ := Prod.mk.inj heq
  have hwithin : Part.Within p ⟨.type, n⟩ := .child hp (.refl p)
  exact ⟨n, hparse, hsource, body, last, htokens, htext, p, hp, hpsource, hpstop,
    (hnodes p hwithin).2.2.1⟩

/-- Whatever a text is parsed as, the operands of every node bind tight enough: those of a binary
operator and of `instanceof` by their binding powers, where the left operand of a binary operator
may also be a test with `instanceof`, and no operand of an operator is an assignment or a
conditional. -/
theorem parse_nodes_grouped {n : Node mode.form}
    (h : (parse text mode lexical preferences).evaluate = .ok n) :
    ∀ p, Part.Within p ⟨mode.form, n⟩ → p.node.inner.Grouped := by
  obtain ⟨x, c, t, -, -, -, -, -, hroot⟩ := exists_isRoot h
  intro p hp
  cases hroot with
  | whole hfaithful _ => exact (hfaithful p hp).grouped
  | empty hunit _ _ _ =>
    obtain rfl := hunit.eq_of_within hp
    obtain ⟨span, source, hunit⟩ := hunit
    rw [hunit]
    trivial

/-- A sum has a test with `instanceof` as its left operand, which binds less tight. -/
theorem parse_nodes_grouped_after_instanceof :
    ∃ (n left right : Node .expression) (operator : BinaryOperator),
      (parse "a instanceof T + 1" .expression).evaluate = .ok n ∧
      n.inner = .binary left operator right ∧ left.inner.isInstanceOf = true ∧
      left.inner.precedence? = some 7 ∧ operator.precedence = 9 ∧ n.inner.Grouped := by
  have hview : (parse "a instanceof T + 1" .expression).evaluate.toOption.map
      (fun n => match n.inner with
        | .binary left operator _ =>
          (left.inner.isInstanceOf, left.inner.precedence?, operator.precedence)
        | _ => (false, none, 0)) = some (true, some 7, 9) := by decide +kernel
  obtain ⟨n, hparse, hn⟩ := exists_parse_of_view hview
  have hgrouped := parse_nodes_grouped hparse _ (.refl _)
  cases htree : n.inner with
  | binary left operator right =>
    rw [htree] at hn
    simp only [Prod.mk.injEq] at hn
    exact ⟨n, left, right, operator, hparse, htree, hn.1, hn.2.1, hn.2.2, htree ▸ hgrouped⟩
  | _ =>
    rw [htree] at hn
    cases hn

/-- Whatever a text is parsed as, the arrow of a switch rule comes right after its label, and it is
the first arrow behind the keyword of the label that stands outside all groups that are opened
there. So it is never that of a lambda. The keyword is `case` unless the label is a lone
`default`. -/
theorem parse_rules_arrow_first {n : Node mode.form}
    (h : (parse text mode lexical preferences).evaluate = .ok n) {rule : Node .switchRule}
    {label : Node .switchLabel} {body : Tree .ruleBody}
    (hwithin : Part.Within ⟨.switchRule, rule⟩ ⟨mode.form, n⟩)
    (hrule : rule.inner = .switchRule label body) :
    ∃ tokens before keyword between arrow behind, (tokenize text lexical).toExcept = .ok tokens ∧
      ArrowIn tokens label body before keyword between arrow behind := by
  obtain ⟨x, c, t, rfl, rfl, -, -, -, hroot⟩ := exists_isRoot h
  have hruled : Part.Ruled x.tokens ⟨.switchRule, rule⟩ := by
    cases hroot with
    | whole hfaithful _ => exact (hfaithful _ hwithin).ruled
    | empty hunit _ _ _ =>
      have hsame := hunit.eq_of_within hwithin
      obtain ⟨span, source, hunit⟩ := hunit
      cases congrArg Part.form (hsame.trans hunit)
  obtain ⟨before, keyword, between, arrow, behind, harrow⟩ := hruled rule label body rfl hrule
  exact ⟨x.tokens, before, keyword, between, arrow, behind, x.toExcept_tokenize, harrow⟩

/-- A guard has the arrow of a lambda in its parentheses, and it ends with a name that could be
the parameter of another lambda. -/
theorem parse_rules_arrow_first_behind_guard :
    ∃ (n : Node .expression) (rule : Node .switchRule) (label : Node .switchLabel)
      (body : Tree .ruleBody),
      (parse "switch (o) { case T t when f(a -> b) && (C) d -> e; }" .expression).evaluate = .ok n ∧
      Part.Within ⟨.switchRule, rule⟩ ⟨.expression, n⟩ ∧
      rule.source = "case T t when f(a -> b) && (C) d -> e;" ∧
      rule.inner = .switchRule label body ∧
      ∃ tokens before keyword between arrow behind,
        (tokenize "switch (o) { case T t when f(a -> b) && (C) d -> e; }" {}).toExcept =
          .ok tokens ∧
        ArrowIn tokens label body before keyword between arrow behind := by
  have hview : (parse "switch (o) { case T t when f(a -> b) && (C) d -> e; }"
      .expression).evaluate.toOption.map (fun n : Node (ParseMode.form .expression) =>
        (Part.children ⟨.expression, n⟩).map fun p => (p.form, p.source)) =
      some [(.expression, "o"), (.switchRule, "case T t when f(a -> b) && (C) d -> e;")] := by
    decide +kernel
  obtain ⟨n, hparse, hn⟩ := exists_parse_of_view hview
  obtain ⟨⟨form, rule⟩, hchild, heq⟩ : ∃ p ∈ Part.children ⟨.expression, n⟩, (p.form, p.source) =
      (Form.switchRule, "case T t when f(a -> b) && (C) d -> e;") := List.mem_map.mp (by simp [hn])
  obtain ⟨rfl, hsource⟩ := Prod.mk.inj heq
  have hwithin : Part.Within ⟨.switchRule, rule⟩ ⟨.expression, n⟩ := .child hchild (.refl _)
  cases hrule : rule.inner with
  | switchRule label body =>
    have harrow := parse_rules_arrow_first hparse hwithin hrule
    exact ⟨n, rule, label, body, hparse, hwithin, hsource, hrule, harrow⟩

end FrontEnd

end JavaSyntax
