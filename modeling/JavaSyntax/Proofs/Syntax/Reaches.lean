import JavaSyntax.Proofs.Syntax.Outcomes
import JavaSyntax.Proofs.Tree.Bare

/-!
# Parsers that come to a result

Whether a parser succeeds is decided by the words ahead, except that it may be nested too
deep. So the statement about a parser is this: from a state with certain words ahead it comes
to a result and leaves a cursor of which something holds, unless productions are nested too
deep. Such statements are put together along the definition of the parser, and the ones about
elementary steps say which words they pass.
-/

namespace JavaSyntax

open Work

/-- The error of productions that are nested too deep. -/
def SyntaxError.IsTooDeep (e : SyntaxError) : Prop := ∃ found span, e = .tooDeep found span

namespace Parser

variable {α β : Type} {x : Tokenized} {s : ParserState} {ws : List Word} {w : Word}

/-- A parser comes to a result from a state, and something holds of the result and the cursor
that it leaves, unless productions are nested too deep. -/
def Reaches (p : Parser α) (s : ParserState) (Q : α → Cursor → Prop) : Prop :=
  match p s with
  | (.ok a, s') => Q a s'.cursor
  | (.error e, _) => e.IsTooDeep

namespace Reaches

variable {p : Parser α} {f : α → Parser β} {Q R : α → Cursor → Prop} {P : β → Cursor → Prop}

/-- A parser that is known to come to a result. -/
theorem of_eq {a : α} {t : ParserState} (h : p s = (.ok a, t)) (hQ : Q a t.cursor) :
    Reaches p s Q := Gives.of_eq h hQ

/-- A parser that is known to be nested too deep. -/
theorem of_tooDeep {e : SyntaxError} {s' : ParserState} (h : p s = (.error e, s'))
    (he : e.IsTooDeep) : Reaches p s Q := Gives.of_error h he

/-- What a parser comes to is a result, or it is nested too deep. -/
theorem cases (h : Reaches p s Q) :
    (∃ a s', p s = (.ok a, s') ∧ Q a s'.cursor) ∨
      ∃ e s', p s = (.error e, s') ∧ e.IsTooDeep := Gives.cases h

/-- What holds of the result may be weakened. -/
theorem mono (h : Reaches p s Q) (hQ : ∀ a c, Q a c → R a c) : Reaches p s R := Gives.mono h hQ

/-- What comes next starts where the first part has ended. -/
theorem bind (hp : Reaches p s Q) (hf : ∀ a s', Q a s'.cursor → Reaches (f a) s' P) :
    Reaches (p >>= f) s P := Gives.bind hp hf

/-- A value that is given comes out, and the cursor stays. -/
theorem pure {a : α} (h : Q a s.cursor) : Reaches (Pure.pure a) s Q :=
  Gives.pure (E := SyntaxError.IsTooDeep) h

/-- Asking for the position gives the index at which the cursor stands. -/
theorem position {f : Nat → Parser β} (h : Reaches (f s.cursor.position) s P) :
    Reaches (position >>= f) s P := h

/-- Whether lambdas are allowed inside a parser makes no difference to its cursor. -/
theorem withLambdas (allowed : Bool) (h : Reaches p { s with lambdas := allowed } Q) :
    Reaches (withLambdas allowed p) s Q := Gives.withLambdas allowed h

/-- A loop comes to an end if the steps that are left become fewer. -/
theorem loop {step : α → Parser (Step α β)} {I : Nat → α → Cursor → Prop} {n : Nat} {a : α}
    (hI : I n a s.cursor) (hbound : n < loopBound s)
    (hstep : ∀ n a s, I n a s.cursor → Reaches (step a) s fun r c => match r with
      | .again a => ∃ m < n, I m a c
      | .done b => P b c) :
    Reaches (loop step a) s P := Gives.loop hI hbound hstep

end Reaches

/-! ### Looking and taking -/

/-- Looking ahead gives the word so many places ahead, and nothing moves. -/
theorem reaches_peek (h : s.cursor.Faces x ws) (n : Nat) :
    Reaches (peek n) s fun t c => t.word = wordAt ws n ∧ Stays x ws s.cursor c := gives_peek h n

/-- Asking for a kind gives that of the word so many places ahead. -/
theorem reaches_peekKind (h : s.cursor.Faces x ws) (n : Nat) :
    Reaches (peekKind n) s fun kind c =>
      kind = (wordAt ws n).kind ∧ Stays x ws s.cursor c := gives_peekKind h n

/-- Asking for the current kind gives that of the next word. -/
theorem reaches_currentKind (h : s.cursor.Faces x ws) :
    Reaches currentKind s fun kind c =>
      kind = (wordAt ws 0).kind ∧ Stays x ws s.cursor c := reaches_peekKind h 0

/-- Checking for a kind tells whether the next word is of that kind. -/
theorem reaches_check (h : s.cursor.Faces x ws) (kind : TokenKind) :
    Reaches (check kind) s fun b c =>
      b = ((wordAt ws 0).kind == kind) ∧ Stays x ws s.cursor c := gives_check h kind

/-- Taking a token gives the next word and passes it. -/
theorem reaches_advance (h : s.cursor.Faces x (w :: ws)) (hw : w.kind ≠ .endOfInput) :
    Reaches advance s fun t c => t.word = w ∧ c.Faces x ws := gives_advance h hw

/-- A token that comes next is taken. -/
theorem reaches_eat (h : s.cursor.Faces x (w :: ws)) {kind : TokenKind} (hw : w.kind = kind)
    (hend : kind ≠ .endOfInput) :
    Reaches (eat kind) s fun b c => b = true ∧ c.Faces x ws := gives_eat h hw hend

/-- A token of another kind stays. -/
theorem reaches_eat_other (h : s.cursor.Faces x ws) {kind : TokenKind}
    (hkind : ((wordAt ws 0).kind == kind) = false) :
    Reaches (eat kind) s fun b c => b = false ∧ Stays x ws s.cursor c := gives_eat_other h hkind

/-- A token of the demanded kind is taken. -/
theorem reaches_expect (h : s.cursor.Faces x (w :: ws)) {kind : TokenKind} (hw : w.kind = kind)
    (hend : kind ≠ .endOfInput) :
    Reaches (expect kind) s fun t c => t.word = w ∧ c.Faces x ws := by
  refine .bind (reaches_check h kind) ?_
  rintro _ s' ⟨rfl, hfaces, -⟩
  rw [wordAt_cons_zero, hw, beq_self_eq_true, if_pos rfl]
  exact reaches_advance hfaces (hw ▸ hend)

/-- An identifier is taken where one is demanded, and its name comes out. -/
theorem reaches_expectIdentifier (h : s.cursor.Faces x (w :: ws)) (hw : w.kind = .identifier) :
    Reaches expectIdentifier s fun name c => name = w.text ∧ c.Faces x ws := by
  refine .bind (reaches_check h .identifier) ?_
  rintro _ s' ⟨rfl, hfaces, -⟩
  rw [wordAt_cons_zero, hw, beq_self_eq_true, if_pos rfl]
  refine .bind (reaches_advance hfaces (by rw [hw]; exact nofun)) ?_
  rintro t s'' ⟨hword, hfaces⟩
  exact .pure ⟨congrArg Word.text hword, hfaces⟩

/-- The end of the text is found where no words are left. -/
theorem reaches_expectEnd (h : s.cursor.Faces x []) :
    Reaches expectEnd s fun _ _ => True := by
  refine .bind (reaches_peek h 0) ?_
  rintro t s' ⟨hword, -⟩
  have hend : t.isEnd = true := by
    rw [Token.isEnd, show t.kind = _ from congrArg Word.kind hword]
    rfl
  rw [hend]
  exact .pure trivial

/-! ### Closing angles -/

/-- An angle is taken, whatever word it belongs to. -/
theorem reaches_closing {us : List Word} (h : s.cursor.FacesSingly x (w :: us))
    (hw : w.kind = .greater) {p : Token → Parser α} {q : Parser α} {Q : α → Cursor → Prop}
    (hp : ∀ t s, s.cursor.FacesSingly x us → Reaches (p t) s Q) :
    Reaches (splitGreater >>= fun found => if found = true then advance >>= p else q) s Q :=
  gives_closing h hw hp

/-- Where no angle comes next, none is taken. -/
theorem reaches_closing_other {us : List Word} (h : s.cursor.FacesSingly x us)
    (hgreater : (wordAt us 0).kind ≠ .greater) (hnone : (wordAt us 0).kind.afterGreater? = none)
    {p : Token → Parser α} {q : Parser α} {Q : α → Cursor → Prop}
    (hq : ∀ s, s.cursor.FacesSingly x us → Reaches q s Q) :
    Reaches (splitGreater >>= fun found => if found = true then advance >>= p else q) s Q :=
  gives_closing_other h hgreater hnone hq

/-! ### Productions -/

/-- A node is what it was made of, apart from its place. -/
theorem reaches_node {f : Form} (start : Nat) (tree : Tree f) :
    Reaches (node start tree) s fun n c =>
      n.bare = (Tree.located tree .nowhere "").bare ∧ c = s.cursor :=
  .of_eq (node_apply start tree s) ⟨rfl, rfl⟩

/-- Going back to where the parse stands changes nothing. -/
theorem reaches_restore (h : s.cursor.Faces x ws) {n : Nat} (hn : s.cursor.position = n) :
    Reaches (restore n) s fun _ c => c.Faces x ws :=
  gives_restore (E := SyntaxError.IsTooDeep) h hn

/-- A guarded production reaches what it guards, unless it is nested too deep. -/
theorem reaches_guarded {p : Parser α} {Q : α → Cursor → Prop} (context : String)
    (h : s.cursor.Faces x ws) (hp : ∀ s : ParserState, s.cursor.Faces x ws → Reaches p s Q) :
    Reaches (guarded context p) s Q :=
  gives_guarded context (fun _ _ => ⟨_, _, rfl⟩) h hp

/-- The level below all levels is too deep for everything. -/
theorem reaches_refuseDepth {Q : α → Cursor → Prop} (h : s.cursor.Faces x ws) :
    Reaches refuseDepth s Q := by
  refine .bind (reaches_peek h 0) ?_
  rintro t s' -
  exact .of_tooDeep rfl ⟨_, _, rfl⟩

end Parser

end JavaSyntax
