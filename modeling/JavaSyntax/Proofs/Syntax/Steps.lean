import JavaSyntax.Proofs.Syntax.Walk
import JavaSyntax.Proofs.Syntax.Yield

/-!
# What the elementary steps yield

The steps that every production is made of, each with its effect: looking leaves the parse
where it is, taking a token passes it, and a failure never comes to a result. Repetitions
yield what their items yield, one after the other.
-/

namespace JavaSyntax

open Work JavaSyntax.Parser

variable {x : Tokenized}

/-! ### Looking and taking -/

/-- The effect of looking at a token of a kind. -/
def Effect.facing (kind : TokenKind) : Effect := if kind.leads then .faced else .fresh

/-- The effect of taking a token of a kind. -/
def Effect.passing (kind : TokenKind) : Effect := if kind.leads then .taken else .step

/-- Looking at a token passes nothing, whatever its kind is. -/
@[simp] theorem Effect.facing_le_fresh (kind : TokenKind) : (facing kind).Le fresh := by
  unfold facing
  split <;> trivial

/-- A token that was looked at is taken. -/
@[simp] theorem Effect.facing_andThen_step (kind : TokenKind) :
    (facing kind).andThen step = passing kind := by
  unfold facing passing
  split <;> rfl

namespace Stretch

variable {c c' : Cursor} {t : Token}

/-- A parse that has come back to where it was has passed nothing. -/
theorem stay (hc : c.On x) (hcourse : Cursor.Course c.position c none c')
    (hposition : c'.position = c.position) : Stretch x c [] [] .fresh c' := by
  refine ⟨hcourse, ?_, .nil _, rfl, ?_⟩
  · obtain ⟨ts, hts⟩ := hcourse.exists_passed hc.settled
    have hlength := congrArg List.length hts
    rw [List.length_append, hc.settled.length_passed, hcourse.settled.length_passed] at hlength
    have hnil : ts = [] := List.eq_nil_of_length_eq_zero (by omega)
    rw [hts, hnil]
  · rintro ⟨t, ht, hleads⟩
    refine ⟨t, ?_, hleads⟩
    rw [hposition]
    exact hcourse.getElem?_position hc.settled hposition ht

/-- Looking ahead leaves the parse where it is. -/
theorem peekAhead {n : Nat} (hc : c.On x) (hpeek : Cursor.peekAhead n c = (.ok t, c')) :
    Stretch x c [] [] .fresh c' := by
  obtain ⟨⟨hcourse, -⟩, hfound⟩ := hc.settled.peekAhead n
  rw [hpeek] at hcourse
  exact .stay hc hcourse (hfound t c' hpeek).1

/-- Looking at the current token tells its kind. -/
theorem peekAhead_zero (hc : c.On x) (hpeek : Cursor.peekAhead 0 c = (.ok t, c')) :
    Stretch x c [] [] (.facing t.kind) c' := by
  have hstay := peekAhead hc hpeek
  unfold Effect.facing
  split
  · rename_i hleads
    refine ⟨hstay.course, hstay.passed_eq, hstay.fits, rfl, t, ?_, hleads⟩
    exact hc.settled.getElem?_current hpeek
  · exact hstay

/-- A node that can start with the current token can start with the one that is looked at. -/
theorem leads_of_leading (hpeek : Cursor.peekAhead 0 c = (.ok t, c')) (hleading : c.Leading) :
    t.kind.leads = true := by
  obtain ⟨u, hu, hleads⟩ := hleading
  rw [Cursor.peekAhead_zero hu] at hpeek
  cases hpeek
  exact hleads

/-- Whatever happens after a look at a token that no node can start with. -/
theorem step_of_not_leads {c'' : Cursor} (hc : c.On x)
    (hpeek : Cursor.peekAhead 0 c = (.ok t, c')) (hleads : t.kind.leads = false)
    (hcourse : Cursor.Course c.position c none c'') : ∃ ts, Stretch x c ts [] .step c'' := by
  obtain ⟨ts, hts⟩ := hcourse.exists_passed hc.settled
  refine ⟨ts, hcourse, hts, .nil _, ?_⟩
  intro hleading
  rw [leads_of_leading hpeek hleading] at hleads
  cases hleads

/-- The current token is passed, and a node can start with it. -/
theorem single (hstay : Stretch x c [] [] .fresh c') (ht : c'.buffer[c'.position]? = some t)
    (hleads : t.kind.leads = true) : Stretch x c [t] [] .taken (c'.pastToken t) := by
  have hopen : t.isEnd = false := by
    refine beq_false_of_ne ?_
    rintro hend
    rw [hend] at hleads
    cases hleads
  refine ⟨hstay.course.pastToken fun _ => ht, ?_, .nil _, t, [], rfl, hleads⟩
  have hpassed := hstay.passed_eq
  rw [List.append_nil] at hpassed
  rw [Cursor.pastToken, hopen, if_neg Bool.false_ne_true]
  change c'.buffer.toList.take (c'.position + 1) = _
  rw [List.take_add_one, Array.getElem?_toList, ht, ← hpassed]
  rfl

/-- Moving past the current token passes it. -/
theorem pastToken (hc : c.On x) (hpeek : Cursor.peekAhead 0 c = (.ok t, c')) :
    ∃ ts, Stretch x c ts [] (.passing t.kind) (c'.pastToken t) := by
  have hstay := peekAhead hc hpeek
  have hcurrent := hc.settled.getElem?_current hpeek
  unfold Effect.passing
  split
  · rename_i hleads
    exact ⟨[t], single hstay hcurrent hleads⟩
  · rename_i hleads
    have hcourse := hstay.course.pastToken (t := t) fun _ => hcurrent
    exact step_of_not_leads hc hpeek (by simpa using hleads) hcourse

/-- Taking a closing angle makes a step if there is one, and nothing moves otherwise. -/
theorem closing? {found : Option Token} (hc : c.On x)
    (hclosing : Cursor.closing? c = (.ok found, c')) :
    ∃ ts, Stretch x c ts [] (if found.isSome then .step else .fresh) c' := by
  have hcourse := hc.settled.closing?.course
  rw [hclosing] at hcourse
  rw [hc.settled.closing?_apply] at hclosing
  rcases hpeek : Cursor.peekAhead 0 c with ⟨_ | t, c₁⟩
  · rw [hpeek] at hclosing
    cases hclosing
  rw [hpeek] at hclosing
  dsimp only at hclosing
  split at hclosing
  · rename_i hgreater
    cases hclosing
    exact step_of_not_leads hc hpeek (by rw [hgreater]; rfl) hcourse
  cases hkind : t.kind.afterGreater? with
  | none =>
    rw [hkind] at hclosing
    cases hclosing
    exact ⟨[], peekAhead hc hpeek⟩
  | some kind =>
    rw [hkind] at hclosing
    cases hclosing
    refine step_of_not_leads hc hpeek ?_ hcourse
    cases hkind' : t.kind <;> rw [hkind'] at hkind <;> cases hkind <;> rfl

end Stretch

/-! ### Steps that look or take -/

section Steps

variable {α : Type} {s s' : ParserState} {t : Token}

/-- What reading a token comes to is what the cursor finds. -/
theorem Parser.peek_eq_ok {n : Nat} (h : peek n s = (.ok t, s')) :
    Cursor.peekAhead n s.cursor = (.ok t, s'.cursor) := by
  rw [peek, read_apply] at h
  rcases hpeek : Cursor.peekAhead n s.cursor with ⟨_ | u, c'⟩
  · rw [hpeek] at h
    cases h
  · rw [hpeek] at h
    cases h
    rfl

instance : Yields x (peek 0) (fun t => .facing t.kind) where
  run hs hrun := ⟨[], .peekAhead_zero hs (peek_eq_ok hrun)⟩

instance (n : Nat) : Yields x (peek (n + 1)) (fun _ => .fresh) where
  run hs hrun := ⟨[], .peekAhead hs (peek_eq_ok hrun)⟩

instance : Yields x Parser.advance (fun _ => .step) where
  run {s s' t} hs hrun := by
    rw [Parser.advance, read_apply, Cursor.advance_apply] at hrun
    rcases hpeek : Cursor.peekAhead 0 s.cursor with ⟨_ | u, c'⟩
    · rw [hpeek] at hrun
      cases hrun
    · rw [hpeek] at hrun
      cases hrun
      obtain ⟨ts, hpast⟩ := Stretch.pastToken hs hpeek
      refine ⟨ts, hpast.le ?_⟩
      unfold Effect.passing
      split <;> trivial

instance {e : SyntaxError} [Bears α] : Yields x (throw e : Parser α) (fun _ => .never) := ⟨nofun⟩

instance (expected : String) [Bears α] : Yields x (unexpected expected : Parser α)
    (fun _ => .never) where
  run _ hrun := absurd (congrArg Prod.fst hrun) (unexpected_ne_ok _ _ _)

instance (event : LogEvent) : Yields x (Parser.note event) (fun _ => .fresh) where
  run hs hrun := by
    cases hrun
    exact ⟨[], (Stretch.refl hs).withJournal _⟩

instance : Yields x (peekKind 0) Effect.facing := by
  unfold peekKind
  exact .free fun _ => .seq fun t => .pure (.refl _) (by simp)

instance (n : Nat) : Yields x (peekKind (n + 1)) (fun _ => .fresh) := by
  unfold peekKind
  exact .free fun _ => .seq fun _ => .pure

instance : Yields x currentKind Effect.facing := by
  unfold currentKind
  infer_instance

instance (kind : TokenKind) :
    Yields x (check kind) (fun found => if found then .facing kind else .fresh) := by
  unfold check
  refine .free fun _ => .seq fun kind' => .pure (.refl _) ?_
  by_cases hkind : kind' = kind <;> simp [hkind]

instance (keyword : Keyword) :
    Yields x (checkKeyword keyword) (fun found => if found then .faced else .fresh) :=
  inferInstanceAs (Yields x (check (.keyword keyword)) _)

instance (word : String) :
    Yields x (checkWord word) (fun found => if found then .faced else .fresh) := by
  unfold checkWord peekIsWord
  refine .free fun _ => .seq fun t => .pure (.refl _) ?_
  by_cases hword : t.isWord word
  · have hkind : t.kind = .identifier := by simpa using (Bool.and_eq_true_iff.mp hword).1
    simp [hword, hkind, Effect.facing, TokenKind.leads]
  · simp [hword]

instance (n : Nat) (word : String) : Yields x (peekIsWord (n + 1) word) (fun _ => .fresh) := by
  unfold peekIsWord
  exact .free fun _ => .seq fun _ => .pure

instance (kind : TokenKind) :
    Yields x (eat kind) (fun found => if found then .passing kind else .fresh) := by
  unfold eat
  exact .free fun _ => .ask (.seq fun _ => .pure (.refl _) (by simp)) .pure

instance (keyword : Keyword) :
    Yields x (eatKeyword keyword) (fun found => if found then .taken else .fresh) :=
  inferInstanceAs (Yields x (eat (.keyword keyword)) _)

instance (word : String) :
    Yields x (eatWord word) (fun found => if found then .taken else .fresh) := by
  unfold eatWord
  exact .free fun _ => .ask (.seq fun _ => .pure) .pure

instance (kind : TokenKind) : Yields x (expect kind) (fun _ => .passing kind) := by
  unfold expect
  exact .free fun _ => .ask (.tail (by simp)) .tail

instance (keyword : Keyword) : Yields x (expectKeyword keyword) (fun _ => .taken) :=
  inferInstanceAs (Yields x (expect (.keyword keyword)) _)

instance : Yields x expectIdentifier (fun _ => .taken) := by
  unfold expectIdentifier
  exact .free fun _ => .ask (.seq fun _ => .pure) .tail

instance : Yields x expectTypeIdentifier (fun _ => .taken) := by
  unfold expectTypeIdentifier
  exact .free fun _ => .look fun t => .cases (fun _ => .fail) fun _ => .tail

instance (word : String) : Yields x (expectWord word) (fun _ => .taken) := by
  unfold expectWord
  exact .free fun _ => .ask .tail .tail

end Steps

/-! ### Splitting a `>` off -/

/-- A `>` is taken, which may be the start of a longer token. -/
theorem Shapes.closing {α : Type} [Bears α] {n : Nat} {G : List (List Part)} {e : Effect}
    {p : Token → Parser α} {q : Parser α} {effect : α → Effect}
    (hp : ∀ t, Shapes x n G (e.andThen .step) (p t) effect)
    (hq : Shapes x n G e q effect) :
    Shapes x n G e (splitGreater >>= fun found =>
      if found = true then Parser.advance >>= p else q) effect := by
  have hclosing : Yields x Parser.closing? fun found =>
      if found.isSome then .step else .fresh := ⟨fun hs hrun => by
    rename_i s s' found
    rw [closing?_eq, read_apply] at hrun
    rcases hok : Cursor.closing? s.cursor with ⟨_ | found, c'⟩
    · rw [hok] at hrun
      cases hrun
    · rw [hok] at hrun
      cases hrun
      exact Stretch.closing? hs hok⟩
  rw [splitGreater_bind_eq]
  refine .seq fun found => ?_
  rw [show G ++ pieces found = G from List.append_nil _]
  cases found with
  | none =>
    have hsame : e.andThen (if (none : Option Token).isSome then .step else .fresh) = e :=
      Effect.andThen_fresh e
    rw [hsame]
    exact hq
  | some t => exact hp t

/-! ### Productions around others -/

section Around

variable {α : Type} [Bears α] {p : Parser α} {effect : α → Effect}

instance [h : Yields x p effect] (allowed : Bool) : Yields x (withLambdas allowed p) effect :=
  .free fun _ => .withLambdas (.tail (by simp))

/-- Entering and leaving a guarded production changes nothing but the notes. -/
theorem Shapes.guarded {n : Nat} {G : List (List Part)} {e : Effect} (h : Shapes x n G e p effect)
    (context : String) : Shapes x n G e (guarded context p) effect where
  run {c s s' a ts} hc hn hstretch hrun := by
    rw [guarded_apply] at hrun
    split at hrun
    · rcases hpeek : peek 0 s with ⟨_ | t, s₁⟩ <;> rw [hpeek] at hrun <;> cases hrun
    rcases hok : p (entered context s) with ⟨r, s₁⟩
    rw [hok] at hrun
    cases hrun
    have hcursor : (entered context s).cursor =
        { s.cursor with journal := (entered context s).cursor.journal } :=
      (pushContext_eq context { s with depth := s.depth + 1 }).1
    have hentered := hstretch.withJournal (entered context s).cursor.journal
    rw [← hcursor] at hentered
    obtain ⟨us, hdone⟩ := h.run hc hn hentered hok
    exact ⟨us, hdone⟩

instance [h : Yields x p effect] (context : String) :
    Yields x (Parser.guarded context p) effect := .free fun _ => .guarded (.tail (by simp)) context

end Around

/-- A lookahead leaves the parse where it is. -/
instance {α : Type} {w : Lookahead α} [h : Production .free w.run] :
    Yields x w.run (fun _ => .fresh) where
  run {s s' a} hs hrun := by
    have hcourse := (h.runs hs.settled trivial).course
    rw [hrun] at hcourse
    refine ⟨[], .stay hs hcourse ?_⟩
    have hstate := congrArg Prod.snd hrun
    rw [Lookahead.run, position_bind_apply] at hstate
    rw [← show _ = s' from hstate]
    rfl

/-! ### Repetition -/

namespace Effect

variable {e e' : Effect}

/-- The effect of a production whose result is a node of all that it has passed. -/
abbrev covering {f : Form} (a : Node f) : Effect := .covered ⟨f, a⟩

/-- The same, if the result is always an operand. -/
abbrev operand (a : Node .expression) : Effect :=
  if a.inner.isOperand = true then .covering a else .never

/-- An effect that only leaves open whether a token was passed. -/
class Opening (e : Effect) : Prop where
  le_opened : e.Le opened

instance : Opening opened := ⟨trivial⟩

instance : Opening fresh := ⟨trivial⟩

instance : Opening faced := ⟨trivial⟩

instance : Opening taken := ⟨trivial⟩

instance (p : Part) : Opening (covered p) := ⟨trivial⟩

instance (kind : TokenKind) : Opening (facing kind) where
  le_opened := by
    unfold facing
    split <;> trivial

instance : Opening (passing .comma) := ⟨trivial⟩

instance : Opening (passing .amp) := ⟨trivial⟩

instance {c : Prop} [Decidable c] [Opening e] [Opening e'] : Opening (if c then e else e') := by
  split <;> infer_instance

/-- Two stretches that a node can start with make up one that a node can start with. -/
theorem Opening.andThen (h : Opening e) (h' : Opening e') : (e.andThen e').Le opened := by
  have he := h.le_opened
  have he' := h'.le_opened
  cases e <;> cases e' <;> trivial

/-- It does not matter what came before, if that left open whether a token was passed. -/
theorem opened_andThen_le (h : (e.andThen e').Le opened) :
    ((opened.andThen e).andThen e').Le opened := by
  cases e <;> cases e' <;> trivial

/-- An effect that shows that nothing was passed. -/
class Still (e : Effect) : Prop where
  le_fresh : e.Le fresh

instance : Still fresh := ⟨trivial⟩

instance : Still faced := ⟨trivial⟩

instance (kind : TokenKind) : Still (facing kind) := ⟨facing_le_fresh kind⟩

instance {c : Prop} [Decidable c] [Still e] [Still e'] : Still (if c then e else e') := by
  split <;> infer_instance

/-- A stretch that passes nothing takes nothing away from the effect before it. -/
theorem Still.andThen_le (h : Still e') (e : Effect) : (e.andThen e').Le e := by
  have he' := h.le_fresh
  cases e <;> cases e' <;> trivial

/-- An effect that shows that a token was passed. -/
class Taking (e : Effect) : Prop where
  le_taken : e.Le taken

instance : Taking taken := ⟨trivial⟩

instance (p : Part) : Taking (covered p) := ⟨trivial⟩

/-- If the second of two stretches passes a token, so do both together. -/
theorem Opening.andThen_taking (h : Opening e) (h' : Taking e') : (e.andThen e').Le taken := by
  have he := h.le_opened
  have he' := h'.le_taken
  cases e <;> cases e' <;> trivial

end Effect

/-- What was looked at does not matter. -/
theorem Shapes.forget {α : Type} [Bears α] {n : Nat} {G : List (List Part)} {e e' : Effect}
    [h' : e'.Still] {p : Parser α} {effect : α → Effect} (h : Shapes x n G e p effect) :
    Shapes x n G (e.andThen e') p effect :=
  h.weaken (.refl _) (h'.andThen_le e)

/-- The nodes of a list are those of its items. -/
class Listed (α : Type) [Bears α] [Bears (List α)] : Prop where
  join_nil : Part.join (pieces ([] : List α)) = []
  join_cons : ∀ (a : α) (l : List α),
    Part.join (pieces (a :: l)) = Part.join (pieces a) ++ Part.join (pieces l)

instance {f : Form} : Listed (Tree f) := ⟨rfl, fun _ _ => rfl⟩

instance (priority := low) {α : Type} : Listed α := ⟨rfl, fun _ _ => rfl⟩

section Repetition

variable {α : Type} [Bears α] [Bears (List α)] [hl : Listed α]

/-- The nodes of a list are those of its items, one after the other. -/
theorem Listed.join_eq_flatMap (l : List α) :
    Part.join (pieces l) = l.flatMap fun a => Part.join (pieces a) := by
  induction l with
  | nil => exact hl.join_nil
  | cons a l ih => rw [hl.join_cons, ih, List.flatMap_cons]

/-- A list has the same nodes as its reverse. -/
theorem Listed.perm_reverse (l : List α) :
    (Part.join (pieces l)).Perm (Part.join (pieces l.reverse)) := by
  rw [join_eq_flatMap, join_eq_flatMap]
  exact (List.reverse_perm l).symm.flatMap_right _

/-- One more item adds its own nodes. -/
theorem Listed.perm_cons (a : α) (l : List α) :
    (Part.join (pieces l ++ pieces a)).Perm (Part.join (pieces (a :: l))) := by
  rw [Part.join_append, hl.join_cons]
  exact List.perm_append_comm

end Repetition

/-- The nodes of an optional result are those of the result. -/
class Optioned (α : Type) [Bears α] [Bears (Option α)] : Prop where
  join_none : Part.join (pieces (none : Option α)) = []
  join_some : ∀ a : α, Part.join (pieces (some a)) = Part.join (pieces a)

instance {f : Form} : Optioned (Tree f) := ⟨rfl, fun _ => rfl⟩

instance {f : Form} : Optioned (List (Tree f)) := ⟨rfl, fun _ => rfl⟩

instance (priority := low) {α : Type} : Optioned α := ⟨rfl, fun _ => rfl⟩

namespace Parser

variable {α : Type} [Bears α] [Bears (List α)] [hl : Listed α] {item : Parser α}
  {eff : α → Effect}

/-- Items that are read while a condition holds yield what they yield one after the other. -/
theorem yields_manyWhile {condition : Parser Bool} {ask : Bool → Effect}
    [Yields x condition ask] [Yields x item eff]
    (hitem : ∀ a, ((ask true).andThen (eff a)).Le .opened := by intro _; trivial)
    (hend : (ask false).Le .opened := by trivial) :
    Yields x (manyWhile condition item) fun _ => .opened := by
  refine .free fun _ => .loop (I := fun _ => .opened) (fun items => .ask (.seq fun a => ?_) ?_) ?_
  · exact .pure (Listed.perm_cons a items) (Effect.opened_andThen_le (hitem a))
  · exact .pure (Listed.perm_reverse items) (Effect.Opening.andThen inferInstance ⟨hend⟩)
  · rw [hl.join_nil]
    exact .refl _

instance {condition : Parser Bool} {ask : Bool → Effect}
    [Yields x condition ask] [Yields x item eff] [hask : ∀ b, (ask b).Opening]
    [heff : ∀ a, (eff a).Opening] : Yields x (manyWhile condition item) (fun _ => .opened) :=
  yields_manyWhile (fun a => (hask true).andThen (heff a)) (hask false).le_opened

instance yields_manyUntil (kind : TokenKind) [Yields x item eff] [∀ a, (eff a).Opening] :
    Yields x (manyUntil kind item) (fun _ => .opened) := by
  have hcheck : Yields x (return !(← check kind) : Parser Bool) fun found =>
      if found then .fresh else .facing kind := by
    refine .free fun _ => .seq fun found => ?_
    cases found <;> exact .pure (.refl _) (by simp)
  unfold manyUntil
  infer_instance

instance yields_separatedBy (kind : TokenKind) [Yields x item eff] [heff : ∀ a, (eff a).Taking] :
    Yields x (separatedBy kind item) (fun _ => .taken) := by
  refine .free fun _ => .loop (I := fun _ => .opened) (fun items => .seq fun a => ?_) ?_
  · refine .weaken (d := .taken) ?_ (.refl _) (Effect.Opening.andThen_taking inferInstance (heff a))
    refine .ask (.pure (Listed.perm_cons a items) ?_) (.pure ?_)
    · exact (Effect.taken_andThen_le _).trans Effect.taken_le_opened
    · exact (Listed.perm_cons a items).trans (Listed.perm_reverse _)
  · rw [hl.join_nil]
    exact .refl _

instance yields_trailingCommas (kind : TokenKind) [Yields x item eff] [heff : ∀ a, (eff a).Taking] :
    Yields x (trailingCommas kind item) (fun _ => .opened) := by
  refine .free fun _ => .loop (I := fun _ => .opened) (fun items => .ask ?_ (.seq fun a => ?_)) ?_
  · refine .pure (Listed.perm_reverse items) (Effect.Opening.andThen inferInstance ?_)
    exact inferInstanceAs (Effect.facing kind).Opening
  · refine .weaken (d := .taken) ?_ (.refl _) (Effect.Opening.andThen_taking (e := .opened)
      inferInstance (heff a))
    refine .ask (.pure (Listed.perm_cons a items) ?_) (.pure ?_)
    · exact (Effect.taken_andThen_le _).trans Effect.taken_le_opened
    · exact (Listed.perm_cons a items).trans (Listed.perm_reverse _)
  · rw [hl.join_nil]
    exact .refl _

section Optional

variable [Bears (Option α)] [ho : Optioned α]

/-- Items that are read until there is none yield what they yield one after the other. -/
theorem yields_many {item : Parser (Option α)} {eff : Option α → Effect} [Yields x item eff]
    [heff : ∀ a, (eff a).Opening] (hstill : (eff none).Le .fresh := by trivial) :
    Yields x (many item) fun items => if items.isEmpty then .fresh else .opened := by
  refine .free fun _ => .loop (I := fun items => if items.isEmpty then .fresh else .opened)
    (fun items => .seq fun found => ?_) ?_
  · have hopening : Effect.Opening (if items.isEmpty then .fresh else .opened) := inferInstance
    cases found with
    | none =>
      refine .pure ?_ ?_
      · rw [Part.join_append, ho.join_none, List.append_nil]
        exact Listed.perm_reverse items
      · simpa using Effect.Still.andThen_le ⟨hstill⟩ _
    | some a =>
      refine .pure ?_ (hopening.andThen (heff (some a)))
      rw [Part.join_append, ho.join_some, ← Part.join_append]
      exact Listed.perm_cons a items
  · rw [hl.join_nil]
    exact .refl _

instance yields_at? (kind : TokenKind) [Yields x item eff] [heff : ∀ a, (eff a).Opening] :
    Yields x (at? kind item) (fun _ => .opened) := by
  refine .free fun _ => .ask (.seq fun a => .pure ?_ ?_) (.pure ?_ ?_)
  · rw [ho.join_some]
    exact .refl _
  · rw [Effect.fresh_andThen]
    exact Effect.Opening.andThen inferInstance (heff a)
  · rw [ho.join_none]
    exact .refl _
  · trivial

instance yields_after? (kind : TokenKind) [Yields x item eff] :
    Yields x (after? kind item) (fun _ => if kind.leads then .opened else .any) := by
  refine .free fun _ => .ask (.seq fun a => .pure ?_ ?_) (.pure ?_ ?_)
  · rw [ho.join_some]
    exact .refl _
  · rw [Effect.fresh_andThen, if_pos rfl, Effect.passing]
    split
    · exact (Effect.taken_andThen_le _).trans Effect.taken_le_opened
    · exact Effect.le_any _
  · rw [ho.join_none]
    exact .refl _
  · change Effect.fresh.Le _
    split <;> trivial

end Optional

end Parser

end JavaSyntax
