import JavaSyntax.Proofs.Lexer.Decimals
import JavaSyntax.Proofs.Tree.Bare

/-!
# The pieces of printed trees

Trees of types without annotations and of operators have a canonical text without line
breaks, which is made of words and blanks. Which pieces these are is a function of the tree,
and printing writes them down one after the other.
-/

namespace JavaSyntax

/-! ### Prints that write on the line -/

/-- A print that writes some pieces at the end of a line that something stands on. -/
def Print.Writes (p : Print) (ps : List Piece) : Prop :=
  ∀ w : Writer, w.atLineStart = false →
    p w = { w with output := w.output ++ String.ofList (Piece.spelling ps) }

namespace Print.Writes

variable {p : Print} {prints : List Print} {ps qs : List Piece}

/-- Doing nothing writes no pieces. -/
theorem nothing : Writes id [] := by
  intro w _
  simp [Piece.spelling]

/-- A text writes the pieces that it is spelt as. -/
theorem text (s : String) (ps : List Piece) (hs : s.toList = Piece.spelling ps) :
    Writes (Print.text s) ps := by
  intro w hw
  rw [Print.text, Writer.write, ← hs, String.ofList_toList]
  split
  · rename_i hempty
    rw [String.isEmpty_iff.mp hempty, String.append_empty]
  · rw [hw, if_neg Bool.false_ne_true]

/-- A name writes itself as a word. -/
theorem name (s : String) : Writes (Print.text s) [.word (.name s)] :=
  text s _ (List.append_nil _).symm

/-- Prints in sequence write their pieces in sequence. -/
theorem append {q : Print} (hp : Writes p ps) (hq : Writes q qs) :
    Writes (fun w => q (p w)) (ps ++ qs) := by
  intro w hw
  dsimp only
  rw [hp w hw, hq { w with output := w.output ++ String.ofList (Piece.spelling ps) } hw]
  simp only [Piece.spelling_append, String.ofList_append, String.append_assoc]

/-- No prints write no pieces. -/
theorem all_nil : Writes (Print.all []) [] := nothing

/-- Prints in sequence write the pieces of the first one and then those of the others. -/
theorem all_cons (hp : Writes p ps) (hprints : Writes (Print.all prints) qs) :
    Writes (Print.all (p :: prints)) (ps ++ qs) := hp.append hprints

/-- What is written on one line is the whole text. -/
theorem run_eq (h : Writes p ps) (hline : '\n' ∉ Piece.spelling ps) :
    (Print.run p).toList = Piece.spelling ps := by
  have hlast : (Piece.spelling ps).reverse.dropWhile (· == '\n') = (Piece.spelling ps).reverse := by
    cases hreverse : (Piece.spelling ps).reverse with
    | nil => rfl
    | cons c cs =>
      have hc : c ≠ '\n' := by
        rintro rfl
        exact hline (List.mem_reverse.mp (by rw [hreverse]; exact List.mem_cons_self))
      rw [List.dropWhile_cons, if_neg (by simpa using hc)]
  rw [Print.run, h Writer.empty rfl, Writer.finish, String.toList_ofList]
  change ((("" ++ String.ofList (Piece.spelling ps)).toList.reverse.dropWhile _).reverse) = _
  rw [String.empty_append, String.toList_ofList, hlast, List.reverse_reverse]

end Print.Writes

/-! ### The pieces of a tree -/

/-- The keyword that names a primitive type. -/
def PrimitiveType.keyword : PrimitiveType → Keyword
  | .boolean => .boolean
  | .byte => .byte
  | .char => .char
  | .short => .short
  | .int => .int
  | .long => .long
  | .float => .float
  | .double => .double

/-- The token that writes an operator with one operand. -/
def UnaryOperator.token : UnaryOperator → TokenKind
  | .plus => .plus
  | .minus => .minus
  | .not => .bang
  | .bitwiseNot => .tilde
  | .preIncrement | .postIncrement => .plusPlus
  | .preDecrement | .postDecrement => .minusMinus

/-- The token that writes an operator between two operands. -/
def BinaryOperator.token : BinaryOperator → TokenKind
  | .or => .orOr
  | .and => .andAnd
  | .bitOr => .pipe
  | .bitXor => .caret
  | .bitAnd => .amp
  | .equal => .equal
  | .notEqual => .notEqual
  | .less => .less
  | .greater => .greater
  | .lessEqual => .lessEqual
  | .greaterEqual => .greaterEqual
  | .shiftLeft => .shiftLeft
  | .shiftRight => .shiftRight
  | .unsignedShiftRight => .unsignedShiftRight
  | .add => .plus
  | .subtract => .minus
  | .multiply => .star
  | .divide => .slash
  | .remainder => .percent

/-- The token that writes an assignment. -/
def AssignmentOperator.token : AssignmentOperator → TokenKind
  | .assign => .assign
  | .add => .plusAssign
  | .subtract => .minusAssign
  | .multiply => .starAssign
  | .divide => .slashAssign
  | .remainder => .percentAssign
  | .bitAnd => .ampAssign
  | .bitOr => .pipeAssign
  | .bitXor => .caretAssign
  | .shiftLeft => .shiftLeftAssign
  | .shiftRight => .shiftRightAssign
  | .unsignedShiftRight => .unsignedShiftRightAssign

namespace Form

/-- What stands between the parts of a list. -/
def separator : Form → List Piece
  | .node .type => [.word (.sign .comma), .blank]
  | .classTypeSegment => [.word (.sign .dot)]
  | _ => []

/-- What stands before an optional part. -/
def opening : Form → List Piece
  | .list (.node .type) => [.word (.sign .less)]
  | _ => []

/-- What stands after an optional part. -/
def closing : Form → List Piece
  | .list (.node .type) => [.word .angle]
  | _ => []

end Form

namespace Tree

variable {f : Form}

/-- The blank between an operator and its operand, if one is needed. -/
def gap (operator : UnaryOperator) (operand : Tree .expression) : List Piece :=
  if (operator.symbol.toList.head?).any (startsWithOperator · operand) then [.blank] else []

/-- The sign of an operator between blanks. -/
def between (kind : TokenKind) : List Piece := [.blank, .word (.sign kind), .blank]

/-- The pieces that a tree is printed as, for types without annotations and for operators. -/
def pieces : {f : Form} → Tree f → List Piece
  | .list f, .cons head tail =>
    pieces head ++ if tail.isEmpty then [] else f.separator ++ pieces tail
  | .option f, .present tree => f.opening ++ pieces tree ++ f.closing
  | _, .located tree _ _ => pieces tree
  | _, .primitiveType _ primitive => [.word (.sign (.keyword primitive.keyword))]
  | _, .varType => [.word (.name "var")]
  | _, .classType segments => pieces segments
  | _, .classTypeSegment _ name arguments => .word (.name name) :: pieces arguments
  | _, .arrayType element dimensions => pieces element ++ pieces dimensions
  | _, .dimension _ => [.word (.sign .leftBracket), .word (.sign .rightBracket)]
  | _, .wildcardType _ bound => .word (.sign .question) :: pieces bound
  | _, .extendsBound type => .blank :: .word (.sign (.keyword .extends)) :: .blank :: pieces type
  | _, .superBound type => .blank :: .word (.sign (.keyword .super)) :: .blank :: pieces type
  | _, .literal l => [.word (.literal l)]
  | _, .simpleName name => [.word (.name name)]
  | _, .parenthesized expression =>
    .word (.sign .leftParen) :: pieces expression ++ [.word (.sign .rightParen)]
  | _, .unary operator operand =>
    if operator.isPostfix then pieces operand ++ [.word (.sign operator.token)]
    else .word (.sign operator.token) :: (gap operator operand.inner ++ pieces operand)
  | _, .binary left operator right => pieces left ++ (between operator.token ++ pieces right)
  | _, .assignment target operator value =>
    pieces target ++ (between operator.token ++ pieces value)
  | _, .conditional condition thenValue elseValue =>
    pieces condition ++ (between .question ++ (pieces thenValue ++
      (between .colon ++ pieces elseValue)))
  | _, _ => []

/-- The words among the pieces of a tree. -/
def words (t : Tree f) : List Word := Piece.words t.pieces

/-- A list of one item has the words of the item. -/
theorem words_ofList_singleton (t : Tree f) : (ofList [t]).words = t.words := by
  change Piece.words (t.pieces ++ []) = _
  rw [List.append_nil]
  rfl

/-- Two or more items have a separator between their words. -/
theorem words_ofList_cons_cons (t u : Tree f) (us : List (Tree f)) :
    (ofList (t :: u :: us)).words =
      t.words ++ (Piece.words f.separator ++ (ofList (u :: us)).words) := by
  change Piece.words (t.pieces ++ (f.separator ++ (ofList (u :: us)).pieces)) = _
  rw [Piece.words_append, Piece.words_append]
  rfl

/-- There are no more parts of a list than words, if each has one. -/
theorem length_le_words_ofList {ts : List (Tree f)} (h : ∀ t ∈ ts, t.words ≠ []) :
    ts.length ≤ (ofList ts).words.length := by
  induction ts with
  | nil => exact Nat.zero_le _
  | cons t ts ih =>
    have ht := List.length_pos_iff.mpr (h t List.mem_cons_self)
    have hts := ih fun u hu => h u (List.mem_cons_of_mem _ hu)
    cases ts with
    | nil =>
      rw [words_ofList_singleton]
      exact ht
    | cons u us =>
      rw [words_ofList_cons_cons]
      simp only [List.length_append, List.length_cons] at hts ⊢
      omega

/-- A list is printed item by item. -/
theorem print_ofList (ts : List (Tree f)) : (ofList ts).print = ts.map print := by
  induction ts with
  | nil => rfl
  | cons t ts ih => exact congrArg (t.print :: ·) ih

/-- A list is written with its separator between its parts. -/
theorem writes_join {ts : List (Tree f)} {write : Tree f → Print} {separator : String}
    (hseparator : separator.toList = Piece.spelling f.separator)
    (h : ∀ t ∈ ts, (write t).Writes t.pieces) :
    (Print.join separator (ts.map write)).Writes (ofList ts).pieces := by
  induction ts with
  | nil => exact .nothing
  | cons t ts ih =>
    have ht := h t List.mem_cons_self
    have hts := ih fun u hu => h u (List.mem_cons_of_mem _ hu)
    cases ts with
    | nil =>
      change (write t).Writes (t.pieces ++ [])
      rw [List.append_nil]
      exact ht
    | cons u us =>
      have hjoin := (ht.append (.text separator _ hseparator)).append hts
      rw [List.append_assoc] at hjoin
      exact hjoin

end Tree

end JavaSyntax
