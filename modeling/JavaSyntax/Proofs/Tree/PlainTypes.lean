import JavaSyntax.Proofs.Tree.Pieces

/-!
# Types without annotations

Primitive types, `var`, class types with arguments and arrays, none of them annotated. Their
canonical text is made of words that the lexer reads as themselves, except that closing angles
which stand together are read as one word or a few.
-/

namespace JavaSyntax

/-- A name of a class type with its arguments, if it has any, and without annotations. -/
def Tree.plainSegment (segment : String × Option (List (Node .type))) : Tree .classTypeSegment :=
  .classTypeSegment .nil segment.1 (.ofOption (segment.2.map .ofList))

/-- Whether a type is an array. -/
def Tree.IsArray (t : Tree .type) : Prop := ∃ element dimensions, t = .arrayType element dimensions

/-- The types without annotations. Where a type may be a wildcard, as between angle brackets,
`wild` holds. -/
inductive PlainType : (wild : Bool) → Node .type → Prop
  | primitive {wild : Bool} {span : Span} {source : String} (primitive : PrimitiveType) :
      PlainType wild (.located (.primitiveType .nil primitive) span source)
  | var {wild : Bool} {span : Span} {source : String} :
      PlainType wild (.located .varType span source)
  /-- The names are those of identifiers, and the last one may name a type. -/
  | classType {wild : Bool} {span : Span} {source : String}
      {segments : List (String × Option (List (Node .type)))} (hne : segments ≠ [])
      (hnames : ∀ s ∈ segments, isName s.1 = true)
      (hlast : ∀ s, segments.getLast? = some s → isRestrictedTypeName s.1 = false)
      (harguments : ∀ s ∈ segments, ∀ ts, s.2 = some ts → ∀ t ∈ ts, PlainType true t) :
      PlainType wild (.located (.classType (.ofList (segments.map .plainSegment))) span source)
  /-- There is one dimension at least. -/
  | array {wild : Bool} {span : Span} {source : String} {element : Node .type} (n : Nat)
      (hflat : ¬ element.inner.IsArray) (helement : PlainType false element) :
      PlainType wild (.located
        (.arrayType element (.ofList (List.replicate (n + 1) (.dimension .nil)))) span source)
  | wildcard {span : Span} {source : String} :
      PlainType true (.located (.wildcardType .nil .absent) span source)
  | extendsBound {span : Span} {source : String} {bound : Node .type}
      (hbound : PlainType false bound) :
      PlainType true (.located (.wildcardType .nil (.present (.extendsBound bound))) span source)
  | superBound {span : Span} {source : String} {bound : Node .type}
      (hbound : PlainType false bound) :
      PlainType true (.located (.wildcardType .nil (.present (.superBound bound))) span source)

namespace PlainType

variable {wild : Bool} {t : Node .type}

/-! ### Printing -/

/-- Arguments are written between angles, of which the diamond has nothing between. -/
theorem writes_arguments {ts : List (Node .type)} (h : ∀ t ∈ ts, Print.Writes t.print t.pieces) :
    Print.Writes
      (if (Tree.ofList ts).print.isEmpty then Print.text "<>" else Print.angles (Tree.ofList ts).print)
      ([.word (.sign .less)] ++ (Tree.ofList ts).pieces ++ [.word .angle]) := by
  cases ts with
  | nil => exact .text "<>" [.word (.sign .less), .word .angle] rfl
  | cons t ts =>
    have hjoin : Print.Writes (Print.join ", " (Tree.ofList (t :: ts)).print)
        (Tree.ofList (t :: ts)).pieces := by
      rw [Tree.print_ofList]
      exact Tree.writes_join rfl h
    have hall := Print.Writes.all_cons (.text "<" [.word (.sign .less)] rfl)
      (.all_cons hjoin (.all_cons (.text ">" [.word .angle] rfl) .all_nil))
    rw [List.append_assoc]
    exact hall

/-- The name of a segment is written, and then its arguments. -/
theorem writes_segment {segment : String × Option (List (Node .type))}
    (h : ∀ ts, segment.2 = some ts → ∀ t ∈ ts, Print.Writes t.print t.pieces) :
    Print.Writes (Tree.plainSegment segment).print (Tree.plainSegment segment).pieces := by
  obtain ⟨name, arguments⟩ := segment
  cases arguments with
  | none =>
    have hall := Print.Writes.all_cons .nothing (.all_cons (.name name) (.all_cons .nothing .all_nil))
    exact hall
  | some ts =>
    have harguments := writes_arguments (h ts rfl)
    have hall := Print.Writes.all_cons .nothing
      (.all_cons (.name name) (.all_cons harguments .all_nil))
    rw [List.append_nil] at hall
    exact hall

/-- Dimensions are written as brackets. -/
theorem writes_dimensions (n : Nat) :
    Print.Writes (Print.all (Tree.ofList (List.replicate n (.dimension .nil))).print)
      (Tree.ofList (List.replicate n (Tree.dimension .nil))).pieces := by
  have hdimension := Print.Writes.all_cons .nothing
    (.all_cons (.text "[]" [.word (.sign .leftBracket), .word (.sign .rightBracket)] rfl) .all_nil)
  induction n with
  | zero => exact .nothing
  | succ n ih =>
    have hall := Print.Writes.all_cons hdimension ih
    cases n with
    | zero => exact hall
    | succ n => exact hall

/-- A primitive type writes its keyword. -/
theorem writes_primitive (primitive : PrimitiveType) :
    Print.Writes (Tree.primitiveType .nil primitive).print
      (Tree.primitiveType .nil primitive).pieces := by
  have hkeyword : primitive.text.toList =
      Piece.spelling [.word (.sign (.keyword primitive.keyword))] := by
    cases primitive <;> rfl
  have hall := Print.Writes.all_cons .nothing (.all_cons (.text _ _ hkeyword) .all_nil)
  exact hall

/-- A wildcard is written as a question mark, which its bound may follow. -/
theorem writes_wildcard (bound : Tree (.option .wildcardBound))
    (h : Print.Writes (Print.optional id bound.print) bound.pieces) :
    Print.Writes (Tree.wildcardType .nil bound).print (Tree.wildcardType .nil bound).pieces := by
  have hall := Print.Writes.all_cons .nothing
    (.all_cons (.text "?" [.word (.sign .question)] rfl) (.all_cons h .all_nil))
  rw [List.append_nil] at hall
  exact hall

/-- The bound of a wildcard writes its keyword between blanks, and its type. -/
theorem writes_bound (keyword : String) (word : Keyword) {type : Node .type}
    (hkeyword : keyword.toList =
      Piece.spelling [.blank, .word (.sign (.keyword word)), .blank])
    (h : Print.Writes type.print type.pieces) :
    Print.Writes (Print.all [Print.text keyword, type.print])
      (.blank :: .word (.sign (.keyword word)) :: .blank :: type.pieces) := by
  have hall := Print.Writes.all_cons (.text keyword _ hkeyword) (.all_cons h .all_nil)
  rw [List.append_nil] at hall
  exact hall

/-- A type is written as its pieces. -/
theorem writes (h : PlainType wild t) : Print.Writes t.print t.pieces := by
  induction h with
  | primitive primitive => exact writes_primitive primitive
  | var => exact .name "var"
  | @classType wild span source segments hne hnames hlast harguments ih =>
    have hsegments : ∀ s ∈ segments.map Tree.plainSegment, Print.Writes s.print s.pieces := by
      intro s hs
      obtain ⟨segment, hsegment, rfl⟩ := List.mem_map.mp hs
      exact writes_segment (ih segment hsegment)
    have hjoin : Print.Writes
        (Print.join "." (Tree.ofList (segments.map Tree.plainSegment)).print)
        (Tree.ofList (segments.map Tree.plainSegment)).pieces := by
      rw [Tree.print_ofList]
      exact Tree.writes_join rfl hsegments
    exact hjoin
  | array n hflat helement ih =>
    have hall := Print.Writes.all_cons ih (.all_cons (writes_dimensions (n + 1)) .all_nil)
    rw [List.append_nil] at hall
    exact hall
  | wildcard => exact writes_wildcard .absent .nothing
  | @extendsBound span source bound hbound ih =>
    have hwrites := writes_bound " extends " .extends rfl ih
    refine writes_wildcard (.present (.extendsBound bound)) ?_
    change Print.Writes _ ([] ++ _ ++ [])
    rw [List.append_nil]
    exact hwrites
  | @superBound span source bound hbound ih =>
    have hwrites := writes_bound " super " .super rfl ih
    refine writes_wildcard (.present (.superBound bound)) ?_
    change Print.Writes _ ([] ++ _ ++ [])
    rw [List.append_nil]
    exact hwrites

/-! ### Reading -/

end PlainType

namespace CharClass

/-- Whether a type may start with a character. -/
def startsType (c : CharClass) : Bool := c.startsIdentifier || c == .question

/-- Whether a type ends before a character. -/
def endsType (c : CharClass) : Bool := !c.continuesIdentifier && c != .equals

end CharClass

namespace PlainType

open Piece (leading Readable)

variable {f : Form} {next : CharClass}

/-- An opening angle is read as itself before a type or a closing angle. -/
theorem readBefore_less (hnext : next.startsType = true ∨ next = .greater) :
    (Word.sign .less).ReadBefore next := by
  apply Word.readBefore_sign rfl
  rcases hnext with hnext | rfl
  · cases next <;> first | rfl | cases hnext
  · rfl

/-- A dot is read as itself before a name. -/
theorem readBefore_dot (hnext : next.startsIdentifier = true) :
    (Word.sign .dot).ReadBefore next := by
  apply Word.readBefore_sign rfl
  cases next <;> first | rfl | cases hnext

/-- A bound can be read between blanks. -/
theorem readable_bound (keyword : Keyword) {ps : List Piece}
    (hstarts : (leading ps next).startsType = true) (h : Readable ps next) :
    Readable (.blank :: .word (.sign (.keyword keyword)) :: .blank :: ps) next := by
  refine ⟨.inr ⟨Piece.apart_blank, ?_⟩,
    .inr ⟨Piece.apart_keyword keyword, Word.readBefore_keyword keyword rfl⟩,
    .inr ⟨Piece.apart_blank, ?_⟩, h⟩
  · intro hspace
    have hfirst := Piece.startsIdentifier_leading (w := .sign (.keyword keyword))
      (isIdentifier_keyword keyword) (.blank :: ps) next
    rw [hspace] at hfirst
    cases hfirst
  · intro hspace
    rw [hspace] at hstarts
    cases hstarts

/-- A list can be read if its parts can and the separators between them. -/
theorem readable_ofList {ts : List (Tree f)}
    (hseparator : ∀ t ∈ ts, ∀ next, Readable f.separator (leading t.pieces next))
    (hends : ∀ next, (leading f.separator next).endsType = true)
    (h : ∀ t ∈ ts, ∀ next : CharClass, next.endsType = true → Readable t.pieces next)
    (hnext : next.endsType = true) : Readable (Tree.ofList ts).pieces next := by
  induction ts with
  | nil => trivial
  | cons t ts ih =>
    have ht := h t List.mem_cons_self
    have hts := ih (fun u hu => hseparator u (List.mem_cons_of_mem _ hu))
      fun u hu => h u (List.mem_cons_of_mem _ hu)
    cases ts with
    | nil =>
      change Readable (t.pieces ++ []) next
      rw [List.append_nil]
      exact ht next hnext
    | cons u us =>
      change Readable (t.pieces ++ (f.separator ++ (Tree.ofList (u :: us)).pieces)) next
      refine .append (ht _ ?_) (.append ?_ hts)
      · rw [Piece.leading_append]
        exact hends _
      · change Readable f.separator (leading (u.pieces ++ _) next)
        rw [Piece.leading_append]
        exact hseparator u (List.mem_cons_of_mem _ List.mem_cons_self) _

/-- A type starts with a name, a keyword or the question mark of a wildcard. -/
theorem startsType_leading (h : PlainType wild t) (next : CharClass) :
    (leading t.pieces next).startsType = true := by
  induction h generalizing next with
  | primitive primitive =>
    exact Bool.or_eq_true_iff.mpr
      (.inl (Piece.startsIdentifier_leading (isIdentifier_keyword primitive.keyword) _ _))
  | var => rfl
  | @classType wild span source segments hne hnames hlast harguments ih =>
    cases segments with
    | nil => exact absurd rfl hne
    | cons segment segments =>
      have hname := (Bool.and_eq_true_iff.mp (hnames segment List.mem_cons_self)).1
      exact Bool.or_eq_true_iff.mpr
        (.inl (Piece.startsIdentifier_leading (w := .name segment.1) hname _ _))
  | @array wild span source element n hflat helement ih =>
    change (leading (element.pieces ++ _) next).startsType = true
    rw [Piece.leading_append]
    exact ih _
  | wildcard => rfl
  | extendsBound => rfl
  | superBound => rfl

/-- The name of a segment and its arguments can be read. -/
theorem readable_segment {segment : String × Option (List (Node .type))}
    (hname : isName segment.1 = true)
    (hstarts : ∀ ts, segment.2 = some ts → ∀ t ∈ ts, ∀ next,
      (leading t.pieces next).startsType = true)
    (h : ∀ ts, segment.2 = some ts → ∀ t ∈ ts, ∀ next : CharClass, next.endsType = true →
      Readable t.pieces next)
    (hnext : next.endsType = true) :
    Readable (Tree.plainSegment segment).pieces next := by
  obtain ⟨name, arguments⟩ := segment
  have hidentifier := (Bool.and_eq_true_iff.mp hname).1
  obtain ⟨hcontinues, hequals⟩ := Bool.and_eq_true_iff.mp hnext
  cases arguments with
  | none =>
    refine ⟨.inr ⟨Piece.apart_name hidentifier, ?_⟩, trivial⟩
    have hfree : next.continuesIdentifier = false := by simpa using hcontinues
    exact Word.readBefore_name hname hfree
  | some ts =>
    refine ⟨.inr ⟨Piece.apart_name hidentifier, Word.readBefore_name hname rfl⟩, ?_⟩
    have hlist : Readable (Tree.ofList ts).pieces .greater := by
      refine readable_ofList ?_ (fun _ => rfl) (h ts rfl) rfl
      intro t ht next
      have hstart := hstarts ts rfl t ht next
      generalize leading t.pieces next = first at hstart ⊢
      refine ⟨.inr ⟨Piece.apart_sign rfl (by decide), ?_⟩, .inr ⟨Piece.apart_blank, ?_⟩, trivial⟩
      · exact Word.readBefore_sign rfl rfl
      · rintro rfl
        cases hstart
    have hclosed : Readable ((Tree.ofList ts).pieces ++ [.word .angle]) next := by
      refine hlist.append ⟨.inl ⟨rfl, ?_⟩, trivial⟩
      rintro rfl
      cases hequals
    refine ⟨.inr ⟨Piece.apart_sign rfl (by decide), ?_⟩, hclosed⟩
    have hfirst : (leading ((Tree.ofList ts).pieces ++ [.word .angle]) next).startsType = true ∨
        leading ((Tree.ofList ts).pieces ++ [.word .angle]) next = .greater := by
      cases ts with
      | nil => exact .inr rfl
      | cons t ts =>
        refine .inl ?_
        rw [show (Tree.ofList (t :: ts)).pieces = t.pieces ++ _ from rfl, List.append_assoc,
          Piece.leading_append]
        exact hstarts (t :: ts) rfl t List.mem_cons_self _
    exact readBefore_less hfirst

/-- Pairs of empty brackets can be read before anything. -/
theorem readable_dimensions (n : Nat) :
    Readable (Tree.ofList (List.replicate n (Tree.dimension .nil))).pieces next := by
  induction n with
  | zero => trivial
  | succ n ih =>
    have hopening (next : CharClass) : (Word.sign .leftBracket).ReadBefore next :=
      Word.readBefore_sign rfl rfl
    have hclosing (next : CharClass) : (Word.sign .rightBracket).ReadBefore next :=
      Word.readBefore_sign rfl rfl
    cases n <;> exact ⟨.inr ⟨Piece.apart_sign rfl (by decide), hopening _⟩,
      .inr ⟨Piece.apart_sign rfl (by decide), hclosing _⟩, ih⟩

/-- A type can be read before a character that ends it. -/
theorem readable (h : PlainType wild t) (hnext : next.endsType = true) :
    Readable t.pieces next := by
  induction h generalizing next with
  | primitive primitive =>
    obtain ⟨hcontinues, -⟩ := Bool.and_eq_true_iff.mp hnext
    have hfree : next.continuesIdentifier = false := by simpa using hcontinues
    exact ⟨.inr ⟨Piece.apart_keyword _, Word.readBefore_keyword _ hfree⟩, trivial⟩
  | var =>
    obtain ⟨hcontinues, -⟩ := Bool.and_eq_true_iff.mp hnext
    have hfree : next.continuesIdentifier = false := by simpa using hcontinues
    exact ⟨.inr ⟨Piece.apart_name rfl, Word.readBefore_name (by decide) hfree⟩, trivial⟩
  | @classType wild span source segments hne hnames hlast harguments ih =>
    change Readable (Tree.ofList (segments.map Tree.plainSegment)).pieces next
    refine readable_ofList ?_ (fun _ => rfl) ?_ hnext
    · intro s hs next
      obtain ⟨segment, hsegment, rfl⟩ := List.mem_map.mp hs
      have hname := (Bool.and_eq_true_iff.mp (hnames segment hsegment)).1
      have hstart := Piece.startsIdentifier_leading (w := .name segment.1) hname
        (Tree.plainSegment segment).pieces.tail next
      exact ⟨.inr ⟨Piece.apart_sign rfl (by decide), readBefore_dot hstart⟩, trivial⟩
    · intro s hs next hnext
      obtain ⟨segment, hsegment, rfl⟩ := List.mem_map.mp hs
      exact readable_segment (hnames segment hsegment)
        (fun ts hts t ht => (harguments segment hsegment ts hts t ht).startsType_leading)
        (fun ts hts t ht _ => ih segment hsegment ts hts t ht) hnext
  | @array wild span source element n hflat helement ih =>
    exact Readable.append (ih rfl) (readable_dimensions (n + 1))
  | wildcard => exact ⟨.inr ⟨Piece.apart_sign rfl (by decide), Word.readBefore_sign rfl rfl⟩, trivial⟩
  | @extendsBound span source bound hbound ih =>
    have hread := readable_bound .extends (hbound.startsType_leading next) (ih hnext)
    refine ⟨.inr ⟨Piece.apart_sign rfl (by decide), Word.readBefore_sign rfl rfl⟩, ?_⟩
    change Readable ([] ++ _ ++ []) next
    rw [List.append_nil]
    exact hread
  | @superBound span source bound hbound ih =>
    have hread := readable_bound .super (hbound.startsType_leading next) (ih hnext)
    refine ⟨.inr ⟨Piece.apart_sign rfl (by decide), Word.readBefore_sign rfl rfl⟩, ?_⟩
    change Readable ([] ++ _ ++ []) next
    rw [List.append_nil]
    exact hread

/-- The canonical text of a type is made of its pieces. -/
theorem toList_canonical (h : PlainType wild t) : t.canonical.toList = Piece.spelling t.pieces :=
  h.writes.run_eq (Readable.newline_notMem (h.readable rfl : Readable t.pieces .endOfText))

end PlainType

end JavaSyntax
