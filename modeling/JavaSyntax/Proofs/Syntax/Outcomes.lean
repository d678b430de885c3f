import JavaSyntax.Proofs.Syntax.Attempt
import JavaSyntax.Proofs.Token.Angles

/-!
# What parsers come to

A statement about a parser says what holds of its result and of the cursor that it leaves, and
which errors it may end with instead. Such statements are put together along the definition of
the parser. The ones about elementary steps say which words they pass; these steps do not fail
where words are ahead.
-/

namespace JavaSyntax

open Work

namespace Parser

variable {α β : Type} {x : Tokenized} {s : ParserState} {ws us : List Word} {w : Word}
  {E : SyntaxError → Prop}

/-- A parser comes to a result from a state, and something holds of the result and the cursor
that it leaves, unless it ends with one of some errors. -/
def Gives (E : SyntaxError → Prop) (p : Parser α) (s : ParserState) (Q : α → Cursor → Prop) :
    Prop :=
  match p s with
  | (.ok a, s') => Q a s'.cursor
  | (.error e, _) => E e

namespace Gives

variable {p : Parser α} {f : α → Parser β} {Q R : α → Cursor → Prop} {P : β → Cursor → Prop}

/-- A parser that is known to come to a result. -/
theorem of_eq {a : α} {t : ParserState} (h : p s = (.ok a, t)) (hQ : Q a t.cursor) :
    Gives E p s Q := by
  rw [Gives, h]
  exact hQ

/-- A parser that is known to end with an allowed error. -/
theorem of_error {e : SyntaxError} {s' : ParserState} (h : p s = (.error e, s')) (he : E e) :
    Gives E p s Q := by
  rw [Gives, h]
  exact he

/-- What a parser comes to is a result or an allowed error. -/
theorem cases (h : Gives E p s Q) :
    (∃ a s', p s = (.ok a, s') ∧ Q a s'.cursor) ∨ ∃ e s', p s = (.error e, s') ∧ E e := by
  rw [Gives] at h
  split at h
  · rename_i a s' hp
    exact .inl ⟨a, s', hp, h⟩
  · rename_i e s' hp
    exact .inr ⟨e, s', hp, h⟩

/-- What holds of the result may be weakened. -/
theorem mono (h : Gives E p s Q) (hQ : ∀ a c, Q a c → R a c) : Gives E p s R := by
  rcases h.cases with ⟨a, s', hp, ha⟩ | ⟨e, s', hp, he⟩
  · exact .of_eq hp (hQ a _ ha)
  · exact .of_error hp he

/-- More errors may be allowed. -/
theorem weaken {F : SyntaxError → Prop} (h : Gives F p s Q) (hE : ∀ e, F e → E e) :
    Gives E p s Q := by
  rcases h.cases with ⟨a, s', hp, ha⟩ | ⟨e, s', hp, he⟩
  · exact .of_eq hp ha
  · exact .of_error hp (hE e he)

/-- What comes next starts where the first part has ended. -/
theorem bind (hp : Gives E p s Q) (hf : ∀ a s', Q a s'.cursor → Gives E (f a) s' P) :
    Gives E (p >>= f) s P := by
  rw [Gives, bind_apply]
  rcases hp.cases with ⟨a, s', hp, ha⟩ | ⟨e, s', hp, he⟩
  · rw [hp]
    exact hf a s' ha
  · rw [hp]
    exact he

/-- A value that is given comes out, and the cursor stays. -/
theorem pure {a : α} (h : Q a s.cursor) : Gives E (Pure.pure a) s Q := .of_eq rfl h

/-- Asking for the position gives the index at which the cursor stands. -/
theorem position {f : Nat → Parser β} (h : Gives E (f s.cursor.position) s P) :
    Gives E (position >>= f) s P := h

/-- What a parser comes to may be changed afterwards. -/
theorem map {g : α → β} (h : Gives E p s fun a c => P (g a) c) : Gives E (g <$> p) s P := by
  rw [map_eq_pure_bind]
  exact h.bind fun a s' => .pure

/-- A change of the state behind a parser only has to keep what holds of the cursor. -/
theorem andThen {change : ParserState → ParserState} (h : Gives E p s Q)
    (hchange : ∀ a s', Q a s'.cursor → R a (change s').cursor) :
    Gives E (andThen change p) s R := by
  have hrun : Parser.andThen change p s = ((p s).1, change (p s).2) := rfl
  rcases h.cases with ⟨a, s', hp, ha⟩ | ⟨e, s', hp, he⟩
  · rw [hp] at hrun
    exact .of_eq hrun (hchange a s' ha)
  · rw [hp] at hrun
    exact .of_error hrun he

/-- What a production comes to, and the course that it takes. -/
theorem course {m : Footing} (hp : Production m p) (hs : s.cursor.Settled) (hm : m.Holds s.cursor)
    (h : Gives E p s Q) :
    Gives E p s fun a c => Q a c ∧ Cursor.Course (m.base s.cursor) s.cursor none c := by
  have hcourse := (hp.runs hs hm).course
  rcases h.cases with ⟨a, s', hrun, ha⟩ | ⟨e, s', hrun, he⟩
  · rw [hrun] at hcourse
    exact .of_eq hrun ⟨ha, hcourse⟩
  · exact .of_error hrun he

/-- Whether lambdas are allowed inside a parser makes no difference to its cursor. -/
theorem withLambdas (allowed : Bool) (h : Gives E p { s with lambdas := allowed } Q) :
    Gives E (withLambdas allowed p) s Q := by
  rw [Gives, withLambdas_apply]
  rcases h.cases with ⟨a, s', hp, ha⟩ | ⟨e, s', hp, he⟩
  · rw [hp]
    exact ha
  · rw [hp]
    exact he

/-- A loop comes to an end if the steps that are left become fewer. -/
theorem loop {step : α → Parser (Step α β)} {I : Nat → α → Cursor → Prop} {n : Nat} {a : α}
    (hI : I n a s.cursor) (hbound : n < loopBound s)
    (hstep : ∀ n a s, I n a s.cursor → Gives E (step a) s fun r c => match r with
      | .again a => ∃ m < n, I m a c
      | .done b => P b c) :
    Gives E (loop step a) s P := by
  have hfor (k : Nat) : ∀ n a s, n < k → I n a s.cursor → Gives E (loopFor step k a) s P := by
    induction k with
    | zero =>
      intro n a s hn
      exact absurd hn (Nat.not_lt_zero n)
    | succ k ih =>
      intro n a s hn hI
      rw [loopFor]
      refine .bind (hstep n a s hI) ?_
      rintro (a | b) s' h
      · obtain ⟨m, hm, hI'⟩ := h
        exact ih m a s' (by omega) hI'
      · exact .pure h
  exact hfor _ n a s hbound hI

/-- A reading of the cursor, as a step of a parser. -/
theorem read {y : Reading α} {a : α} {c : Cursor} (h : y s.cursor = (.ok a, c)) (hQ : Q a c) :
    Gives E (read y) s Q := by
  have hrun : Parser.read y s = (.ok a, { s with cursor := c }) := by
    rw [read_apply, h]
    rfl
  exact .of_eq hrun hQ

end Gives

/-- What has no errors comes to a result. -/
theorem Gives.exists_eq {p : Parser α} {Q : α → Cursor → Prop} (h : Gives (fun _ => False) p s Q) :
    ∃ a s', p s = (.ok a, s') ∧ Q a s'.cursor := by
  rcases h.cases with hok | ⟨_, _, -, hfalse⟩
  · exact hok
  · exact hfalse.elim

/-- A loop may take as many steps as there are words ahead. -/
theorem length_lt_loopBound (h : s.cursor.FacesSingly x us) : us.length < loopBound s := by
  have hlength := h.length_le
  rw [← h.on.text_eq] at hlength
  exact Nat.lt_succ_of_le hlength

/-- There are fewer words ahead than rounds in which a loop may go. -/
theorem words_lt_loopBound (h : s.cursor.Faces x ws) : ws.length < loopBound s := by
  have hlength := h.length_le
  rw [← h.on.text_eq] at hlength
  exact Nat.lt_succ_of_le hlength

/-! ### Looking and taking -/

/-- The words ahead of a cursor that stands where another one does. -/
structure Stays (x : Tokenized) (ws : List Word) (c c' : Cursor) : Prop where
  faces : c'.Faces x ws
  position_eq : c'.position = c.position

/-- Looking ahead gives the word so many places ahead, and nothing moves. -/
theorem gives_peek (h : s.cursor.Faces x ws) (n : Nat) :
    Gives E (peek n) s fun t c => t.word = wordAt ws n ∧ Stays x ws s.cursor c := by
  obtain ⟨t, c, hpeek, hword, hfaces, hposition⟩ := h.peekAhead n
  exact .read hpeek ⟨hword, hfaces, hposition⟩

/-- Asking for a kind gives that of the word so many places ahead. -/
theorem gives_peekKind (h : s.cursor.Faces x ws) (n : Nat) :
    Gives E (peekKind n) s fun kind c =>
      kind = (wordAt ws n).kind ∧ Stays x ws s.cursor c := by
  refine .bind (gives_peek h n) ?_
  rintro t s' ⟨hword, hstays⟩
  exact .pure ⟨congrArg Word.kind hword, hstays⟩

/-- Checking for a kind tells whether the next word is of that kind. -/
theorem gives_check (h : s.cursor.Faces x ws) (kind : TokenKind) :
    Gives E (check kind) s fun b c =>
      b = ((wordAt ws 0).kind == kind) ∧ Stays x ws s.cursor c := by
  refine .bind (gives_peekKind h 0) ?_
  rintro _ s' ⟨rfl, hstays⟩
  exact .pure ⟨rfl, hstays⟩

/-- Taking a token gives the next word and passes it. -/
theorem gives_advance (h : s.cursor.Faces x (w :: ws)) (hw : w.kind ≠ .endOfInput) :
    Gives E advance s fun t c => t.word = w ∧ c.Faces x ws := by
  obtain ⟨t, c, hadvance, hword, hfaces, -⟩ := h.advance hw
  exact .read hadvance ⟨hword, hfaces⟩

/-- A token that comes next is taken. -/
theorem gives_eat (h : s.cursor.Faces x (w :: ws)) {kind : TokenKind} (hw : w.kind = kind)
    (hend : kind ≠ .endOfInput) :
    Gives E (eat kind) s fun b c => b = true ∧ c.Faces x ws := by
  refine .bind (gives_check h kind) ?_
  rintro _ s' ⟨rfl, hfaces, -⟩
  rw [wordAt_cons_zero, hw, beq_self_eq_true, if_pos rfl]
  refine .bind (gives_advance hfaces (hw ▸ hend)) ?_
  rintro t s'' ⟨-, hfaces⟩
  exact .pure ⟨rfl, hfaces⟩

/-- A token of another kind stays. -/
theorem gives_eat_other (h : s.cursor.Faces x ws) {kind : TokenKind}
    (hkind : ((wordAt ws 0).kind == kind) = false) :
    Gives E (eat kind) s fun b c => b = false ∧ Stays x ws s.cursor c := by
  refine .bind (gives_check h kind) ?_
  rintro _ s' ⟨rfl, hstays⟩
  rw [hkind]
  exact .pure ⟨rfl, hstays⟩

/-- Going back to where the parse stands changes nothing. -/
theorem gives_restore (h : s.cursor.Faces x ws) {n : Nat} (hn : s.cursor.position = n) :
    Gives E (restore n) s fun _ c => c.Faces x ws := by
  have hrun : restore n s = (.ok (), s.restorePosition n) := rfl
  refine .of_eq hrun ?_
  change (s.cursor.restore n).Faces x ws
  rw [← hn, h.on.settled.restore_position]
  exact h

/-- A guarded production comes to what it guards, where the error of nesting too deep is
allowed. -/
theorem gives_guarded {p : Parser α} {Q : α → Cursor → Prop} (context : String)
    (hE : ∀ found span, E (.tooDeep found span)) (h : s.cursor.Faces x ws)
    (hp : ∀ s : ParserState, s.cursor.Faces x ws → Gives E p s Q) :
    Gives E (guarded context p) s Q := by
  rw [Gives, guarded_apply]
  by_cases hdepth : Limits.maxParseDepth ≤ s.depth
  · rw [if_pos hdepth]
    rcases (gives_peek (E := E) h 0).cases with ⟨t, s', hpeek, -⟩ | ⟨e, s', hpeek, he⟩
    · rw [hpeek]
      exact hE _ _
    · rw [hpeek]
      exact he
  · rw [if_neg hdepth]
    have hfaces : (entered context s).cursor.Faces x ws := by
      rw [entered, (pushContext_eq context { s with depth := s.depth + 1 }).1]
      exact h.withJournal _
    rcases (hp _ hfaces).cases with ⟨a, s', hrun, ha⟩ | ⟨e, s', hrun, he⟩
    · rw [hrun]
      exact ha
    · rw [hrun]
      exact he

/-! ### Closing angles -/

variable {p : Token → Parser α} {q : Parser α} {Q : α → Cursor → Prop}

/-- An angle is taken, whatever word it belongs to. -/
theorem gives_closing (h : s.cursor.FacesSingly x (w :: us)) (hw : w.kind = .greater)
    (hp : ∀ t s, s.cursor.FacesSingly x us → Gives E (p t) s Q) :
    Gives E (splitGreater >>= fun found => if found = true then advance >>= p else q) s Q := by
  obtain ⟨t, c, hclosing, hfaces⟩ := h.closing? hw
  rw [splitGreater_bind_eq, closing?_eq]
  refine .bind (.read (Q := fun found c => found = some t ∧ c.FacesSingly x us) hclosing
    ⟨rfl, hfaces⟩) ?_
  rintro _ s' ⟨rfl, hfaces⟩
  exact hp t s' hfaces

/-- Where no angle comes next, none is taken. -/
theorem gives_closing_other (h : s.cursor.FacesSingly x us)
    (hgreater : (wordAt us 0).kind ≠ .greater) (hnone : (wordAt us 0).kind.afterGreater? = none)
    (hq : ∀ s, s.cursor.FacesSingly x us → Gives E q s Q) :
    Gives E (splitGreater >>= fun found => if found = true then advance >>= p else q) s Q := by
  obtain ⟨c, hclosing, hfaces, -⟩ := h.closing?_none hgreater hnone
  rw [splitGreater_bind_eq, closing?_eq]
  refine .bind (.read (Q := fun found c => found = none ∧ c.FacesSingly x us) hclosing
    ⟨rfl, hfaces⟩) ?_
  rintro _ s' ⟨rfl, hfaces⟩
  exact hq s' hfaces

end Parser

/-! ### Going back -/

namespace Lookahead

open JavaSyntax.Parser

variable {α : Type} {x : Tokenized} {s : ParserState} {ws : List Word} {σ : LookaheadState}
  {E : SyntaxError → Prop}

/-- A lookahead as a whole goes back to where it has started. -/
theorem gives_run {w : Lookahead α} {P : α → Prop} [hwalk : Walk .free w]
    (h : s.cursor.Faces x ws) (hw : Gives E (w {}) s fun r _ => P r.1) :
    Gives E w.run s fun a c => P a ∧ Stays x ws s.cursor c := by
  have hcourse := Gives.course (hwalk.production {}) h.on.settled trivial hw
  have hfirst : Gives E (w.run' {}) s fun a c =>
      P a ∧ Cursor.Course s.cursor.position s.cursor none c := .map hcourse
  exact .position (hfirst.andThen fun a s' ⟨ha, hcourse⟩ => ⟨ha, h.restore hcourse, rfl⟩)

/-- A lookahead has come from a place with certain words ahead, and can go back there. -/
structure Returns (x : Tokenized) (ws : List Word) (start c : Cursor) : Prop where
  faces : start.Faces x ws
  course : Cursor.Course start.position start none c

/-- A lookahead that has just started can go back to where it is. -/
theorem Returns.start {start : Cursor} (h : start.Faces x ws) : Returns x ws start start :=
  ⟨h, .refl h.on.settled (Nat.le_refl _)⟩

/-- Whatever it does then, it can go back again. -/
theorem Returns.walk {start : Cursor} {w : Lookahead α} {P : α → Prop}
    (h : Returns x ws start s.cursor) [hwalk : Walk (.marked start.position) w]
    (hw : Gives E (w σ) s fun r _ => P r.1) :
    Gives E (w σ) s fun r c => P r.1 ∧ Returns x ws start c := by
  refine Gives.mono (Gives.course (hwalk.production σ) h.course.settled h.course.le_position hw) ?_
  rintro r c ⟨hr, hcourse⟩
  exact ⟨hr, h.faces, .trans h.faces.on.settled h.course hcourse (Nat.le_refl _)⟩

/-- Going back to a place and passing the token there. -/
theorem Returns.inside {start : Cursor} {question : Lookahead Bool} {P : Bool → Prop}
    (h : Returns x ws start s.cursor) [Walk (.marked start.position) question]
    (hquestion : ∀ s : ParserState, s.cursor.Faces x ws →
      Gives E ((bump >>= fun _ => question) {}) s fun r _ => P r.1) :
    Gives E (inside start.position question σ) s fun r c => P r.1 ∧ Returns x ws start c := by
  refine h.walk (w := Lookahead.inside start.position question) ?_
  exact hquestion (s.restorePosition start.position) (h.faces.restore h.course)

end Lookahead

end JavaSyntax
