import JavaSyntax.Proofs.Syntax.Pace
import JavaSyntax.Proofs.Token.Order

/-!
# Loops end by themselves

A loop repeats its step at most as often as its text has bytes. This bound is never felt if
every step that goes round passes a token: each token takes a byte at least, so a step is done
or fails before the bound is reached. The steps of the loops of the parser and of its lookaheads
are given names here where they have none.
-/

set_option synthInstance.maxSize 4096

namespace JavaSyntax

open JavaSyntax.Parser Work

/-- A settled cursor whose tokens follow one another, over a course that does not go back. -/
theorem Cursor.InOrder.offset_lt {c c' : Cursor} (h : c.InOrder)
    (hcourse : Course c.position c none c') (hlt : c.position < c'.position) :
    c.offset < c'.offset := by
  have hle := h.offset_add_le hcourse
  omega

namespace Parser

variable {α β : Type} {n : Nat} {step : α → Parser (Step α β)} {a : α} {s s' : ParserState}

/-! ### Unbounded repetition -/

/-- What repeating a step comes to, however often it goes round: it ends with a step that is
done or fails. -/
inductive Unrolls (step : α → Parser (Step α β)) :
    α → ParserState → Except SyntaxError β × ParserState → Prop
  | done {a : α} {b : β} {s s' : ParserState} (h : step a s = (.ok (.done b), s')) :
      Unrolls step a s (.ok b, s')
  | failed {a : α} {e : SyntaxError} {s s' : ParserState} (h : step a s = (.error e, s')) :
      Unrolls step a s (.error e, s')
  | again {a next : α} {s s' : ParserState} {outcome : Except SyntaxError β × ParserState}
      (h : step a s = (.ok (.again next), s')) (hrest : Unrolls step next s' outcome) :
      Unrolls step a s outcome

/-- With more rounds than the text has bytes left, a bounded loop comes to what unbounded
repetition comes to. -/
theorem unrolls_loopFor (hstep : ∀ n a, Strides n Step.IsAgain (step a)) {k : Nat}
    (hs : s.cursor.InOrder) (hk : s.cursor.text.utf8ByteSize < s.cursor.position + k) :
    Unrolls step a s (loopFor step k a s) := by
  induction k generalizing a s with
  | zero =>
    have hle := hs.position_le
    omega
  | succ k ih =>
    rw [loopFor, bind_apply]
    rcases hrun : step a s with ⟨e | next | b, s'⟩
    · exact .failed hrun
    · obtain ⟨hcourse, hlt⟩ :=
        (hstep s.cursor.position a).strides hs.toSettled (Nat.le_refl _) hrun
      have hpassed := hlt trivial
      refine .again hrun (ih (hcourse.inOrder hs) ?_)
      rw [hcourse.text_eq]
      omega
    · exact .done hrun

/-- A loop whose steps pass tokens ends by itself. -/
theorem unrolls_loop (hstep : ∀ n a, Strides n Step.IsAgain (step a)) (hs : s.cursor.InOrder) :
    Unrolls step a s (loop step a s) := by
  refine unrolls_loopFor hstep hs ?_
  change _ < _ + (s.cursor.text.utf8ByteSize + 1)
  omega

/-! ### The steps of loops over items -/

/-- Reads one more item if a condition holds. -/
def whileStep (condition : Parser Bool) (item : Parser α) (items : List α) :
    Parser (Step (List α) (List α)) := do
  if ← condition then return .again ((← item) :: items) else return .done items.reverse

/-- Reads one more item if there is one. -/
def searchStep (item : Parser (Option α)) (items : List α) : Parser (Step (List α) (List α)) := do
  match ← item with
  | some x => return .again (x :: items)
  | none => return .done items.reverse

/-- Reads one more item, and goes on if a token of a kind comes next. -/
def separatedStep (kind : TokenKind) (item : Parser α) (items : List α) :
    Parser (Step (List α) (List α)) := do
  let items := (← item) :: items
  if ← eat kind then return .again items else return .done items.reverse

/-- Reads one more item unless a token of a kind comes next, and goes on after a comma. -/
def trailingStep (kind : TokenKind) (item : Parser α) (items : List α) :
    Parser (Step (List α) (List α)) := do
  if ← check kind then return .done items.reverse
  let items := (← item) :: items
  if ← eat .comma then return .again items else return .done items.reverse

instance {item : Parser (Option α)} [hitem : Strides n (·.isSome = true) item] (items : List α) :
    Strides n Step.IsAgain (searchStep item items) :=
  .found hitem (fun _ => inferInstance) inferInstance

instance {kind : TokenKind} [kind.Proper] {item : Parser α} [Onward n item] (items : List α) :
    Strides n Step.IsAgain (separatedStep kind item items) := by
  unfold separatedStep
  infer_instance

instance {kind : TokenKind} {item : Parser α} [Onward n item] (items : List α) :
    Strides n Step.IsAgain (trailingStep kind item items) := by
  unfold trailingStep
  infer_instance

end Parser

namespace Lookahead

/-! ### The steps of lookaheads -/

/-- Passes one more pair of empty brackets. -/
def dimensionStep (any : Bool) : Lookahead (Step Bool Bool) := do
  if ← checkPair .leftBracket .rightBracket then
    bump
    bump
    return .again true
  else return .done any

/-- Passes one more part of a name with dots. -/
def partStep (_ : Unit) : Lookahead (Step Unit Bool) := do
  if ← checkPair .dot .identifier then
    bump
    bump
    return .again ()
  else return .done true

/-- Passes one more annotation. -/
def annotationStep (_ : Unit) : Lookahead (Step Unit Bool) := do
  if ← atAnnotation then
    if ← skipAnnotation then return .again () else return .done false
  else return .done true

/-- Passes one more `final` or annotation. -/
def modifierStep (any : Bool) : Lookahead (Step Bool Bool) := do
  if ← eat (.keyword .final) then return .again true
  if ← atAnnotation then
    if ← skipAnnotation then return .again true else return .done any
  else return .done any

/-- Passes one more argument of a type. -/
def argumentStep (skipType : Lookahead Bool) (_ : Unit) : Lookahead (Step Unit Bool) := do
  if ← exhausted then return .done false
  if !(← skipAnnotations) then return .done false
  if !(← skipTypeArgument skipType) then return .done false
  if ← eat .comma then return .again ()
  return .done (← bumpClosingAngle)

/-- Passes one more name of a class type. -/
def segmentStep (skipType : Lookahead Bool) (_ : Unit) : Lookahead (Step Unit Bool) := do
  if ← atSegment then
    bump
    if !(← skipAnnotations) then return .done false
    if !(← eat .identifier) then return .done false
    if ← skipOptionalArguments skipType then return .again () else return .done false
  else return .done true

/-- Passes one more name of a list. -/
def nameStep (count : Nat) : Lookahead (Step Nat (Option Nat)) := do
  if ← exhausted then return .done none
  if !(← eat .identifier) then return .done none
  if ← eat .comma then return .again (count + 1) else return .done (some (count + 1))

/-- Passes one more parameter that has a type. -/
def parameterStep (_ : Unit) : Lookahead (Step Unit Bool) := do
  if ← exhausted then return .done false
  let _ ← skipModifiers
  if !(← skipType) then return .done false
  let _ ← eat .ellipsis
  if !(← eat .identifier) then return .done false
  let _ ← skipDimensions
  if ← eat .comma then return .again () else return .done true

/-- Passes one more type of an intersection. -/
def intersectionStep (primitive intersection : Bool) : Lookahead (Step Bool (Option Bool)) := do
  if ← eat .amp then
    if ← skipType then return .again true else return .done none
  else return .done (some (primitive && !intersection))

/-- The loops of lookaheads, with the step that each repeats and what it starts from. -/
inductive Loops : {α β : Type} → Lookahead β → (α → Lookahead (Step α β)) → α → Prop
  | dimensions : Loops skipDimensions dimensionStep false
  | parts : Loops (loop partStep ()) partStep ()
  | annotations : Loops skipAnnotations annotationStep ()
  | modifiers : Loops skipModifiers modifierStep false
  | arguments (k : Nat) :
      Loops (loop (argumentStep (skipTypeWithin k)) ()) (argumentStep (skipTypeWithin k)) ()
  | segments (k : Nat) :
      Loops (loop (segmentStep (skipTypeWithin k)) ()) (segmentStep (skipTypeWithin k)) ()
  | names : Loops skipIdentifierList nameStep 0
  | parameters : Loops skipFormalParameters parameterStep ()
  | intersection (primitive : Bool) :
      Loops (loop (intersectionStep primitive) false) (intersectionStep primitive) false

variable {α β : Type} {w : Lookahead β} {step : α → Lookahead (Step α β)} {a : α}

/-- Each of these lookaheads is the loop over its step. -/
theorem Loops.eq (h : Loops w step a) : w = loop step a := by
  cases h <;> rfl

/-- A step of a lookahead that goes round passes a token. -/
theorem Loops.paces (h : Loops w step a) (n : Nat) (b : α) : Paces n Step.IsAgain (step b) := by
  cases h with
  | dimensions => unfold dimensionStep; infer_instance
  | parts => unfold partStep; infer_instance
  | annotations => unfold annotationStep; infer_instance
  | modifiers => unfold modifierStep; infer_instance
  | arguments k =>
    have hwalk : Walk .free (skipTypeWithin k) := walk_skipTypeWithin k
    unfold argumentStep
    infer_instance
  | segments k =>
    have hwalk : Walk .free (skipTypeWithin k) := walk_skipTypeWithin k
    unfold segmentStep
    infer_instance
  | names => unfold nameStep; infer_instance
  | parameters => unfold parameterStep; infer_instance
  | intersection => unfold intersectionStep; infer_instance

end Lookahead

end JavaSyntax
