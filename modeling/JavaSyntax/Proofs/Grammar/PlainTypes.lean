import JavaSyntax.Proofs.Syntax.Reaches
import JavaSyntax.Proofs.Tree.PlainTypes

/-!
# Reading types without annotations

From the words of such a type the grammar comes back to the type itself, whatever stands
around it: closing angles are taken one by one, no matter which tokens they make up. The
statement about one level of the grammar is that for what is nested inside; the level around
takes it from there.
-/

namespace JavaSyntax

open JavaSyntax.Parser Grammar Cursor

/-! ### What may follow a type -/

namespace TokenKind

/-- Whether a type ends before a token. -/
def endsType : TokenKind → Bool
  | .comma | .greater | .endOfInput => true
  | _ => false

/-- Whether a type without dimensions ends before a token. -/
def endsElement (kind : TokenKind) : Bool := kind == .leftBracket || kind.endsType

/-- Whether a type may start with a token. -/
def startsType : TokenKind → Bool
  | .identifier | .keyword _ | .question => true
  | _ => false

end TokenKind

namespace Parser

variable {α : Type} {x : Tokenized} {s : ParserState} {ws us rest : List Word} {w : Word}

/-! ### Steps before words that may be angles -/

/-- A check for anything but an angle sees through tokens with several angles. -/
theorem reaches_check_singly (h : s.cursor.FacesSingly x us) {kind : TokenKind}
    (hkind : kind.isAngle = false) :
    Reaches (check kind) s fun b c => b = ((wordAt us 0).kind == kind) ∧ c.FacesSingly x us := by
  obtain ⟨ws, h, rfl⟩ := h
  rw [← kind_beq_wordAt ws hkind]
  exact (reaches_check h kind).mono fun b c ⟨hb, hstays⟩ => ⟨hb, ws, hstays.faces, rfl⟩

/-- The word that comes next is eaten, if it is no angle. -/
theorem reaches_eat_singly (h : s.cursor.FacesSingly x (w :: us)) {kind : TokenKind}
    (hw : w.kind = kind) (hgreater : kind ≠ .greater) (hend : kind ≠ .endOfInput) :
    Reaches (eat kind) s fun b c => b = true ∧ c.FacesSingly x us := by
  obtain ⟨ws, hfaces, rfl⟩ := h.exists_faces (hw ▸ hgreater)
  exact (reaches_eat hfaces hw hend).mono fun b c ⟨hb, hfaces⟩ => ⟨hb, ws, hfaces, rfl⟩

/-- The word that comes next is passed, if it is no angle. -/
theorem reaches_advance_singly (h : s.cursor.FacesSingly x (w :: us)) (hgreater : w.kind ≠ .greater)
    (hend : w.kind ≠ .endOfInput) :
    Reaches advance s fun _ c => c.FacesSingly x us := by
  obtain ⟨ws, hfaces, rfl⟩ := h.exists_faces hgreater
  exact (reaches_advance hfaces hend).mono fun _ c ⟨_, hfaces⟩ => ⟨ws, hfaces, rfl⟩

/-- A word of another kind is not eaten. -/
theorem reaches_eat_other_singly (h : s.cursor.FacesSingly x us) {kind : TokenKind}
    (hkind : kind.isAngle = false) (hother : ((wordAt us 0).kind == kind) = false) :
    Reaches (eat kind) s fun b c => b = false ∧ c.FacesSingly x us := by
  refine .bind (reaches_check_singly h hkind) ?_
  rintro _ s' ⟨rfl, h⟩
  rw [hother]
  exact .pure ⟨rfl, h⟩

/-- The word that comes next is seen, if it is no angle. -/
theorem reaches_peek_singly (h : s.cursor.FacesSingly x (w :: us)) (hw : w.kind ≠ .greater) :
    Reaches (peek 0) s fun t c => t.word = w ∧ c.FacesSingly x (w :: us) := by
  obtain ⟨ws, h, hws⟩ := h
  have hhead := head?_singles_wordAt ws (n := 0) fun i hi => absurd hi i.not_lt_zero
  rw [hws, wordAt_cons_zero] at hhead
  obtain ⟨-, hw⟩ := Word.singles_of_head? hhead hw
  refine (reaches_peek h 0).mono ?_
  rintro t c ⟨hword, hstays⟩
  exact ⟨hword.trans hw, ws, hstays.faces, hws⟩

/-- The kind of the word that comes next is seen, if it is no angle. -/
theorem reaches_currentKind_singly (h : s.cursor.FacesSingly x (w :: us))
    (hw : w.kind ≠ .greater) :
    Reaches currentKind s fun kind c => kind = w.kind ∧ c.FacesSingly x (w :: us) := by
  refine .bind (reaches_peek_singly h hw) ?_
  rintro t s ⟨hword, h⟩
  exact .pure ⟨congrArg Word.kind hword, h⟩

/-- Behind a word that is no angle, kinds that have no angles are told apart. -/
theorem reaches_peekKind_singly (h : s.cursor.FacesSingly x (w :: us))
    (hw : w.kind.isAngle = false) :
    Reaches (peekKind 1) s fun found c =>
      (∀ kind : TokenKind, kind.isAngle = false →
        (found == kind) = ((wordAt us 0).kind == kind)) ∧ c.FacesSingly x (w :: us) := by
  have hgreater : w.kind ≠ .greater := by
    intro hgreater
    rw [hgreater] at hw
    cases hw
  obtain ⟨ws, hfaces, rfl⟩ := h.exists_faces hgreater
  refine (reaches_peekKind hfaces 1).mono ?_
  rintro _ c ⟨rfl, hfaces, -⟩
  refine ⟨fun kind hkind => kind_beq_wordAt ws hkind, _, hfaces, ?_⟩
  rw [List.flatMap_cons, Word.singles_of_isAngle hw]
  rfl

/-- There are no annotations. -/
theorem reaches_annotations (g : Grammar) (h : s.cursor.FacesSingly x us)
    (hat : ((wordAt us 0).kind == .at) = false) :
    Reaches g.annotations s fun as c =>
      as = [] ∧ c.FacesSingly x us ∧ c.position = s.cursor.position := by
  obtain ⟨ws, h, rfl⟩ := h
  rw [← kind_beq_wordAt ws rfl] at hat
  refine .loop (I := fun n as c => n = 0 ∧ as = [] ∧ Stays x ws s.cursor c)
    ⟨rfl, rfl, h, rfl⟩ (Nat.succ_pos _) ?_
  rintro n _ s' ⟨-, rfl, hfaces, hposition⟩
  have hnone : Reaches atAnnotation s' fun b c => b = false ∧ Stays x ws s'.cursor c := by
    refine .bind (reaches_check hfaces .at) ?_
    rintro _ s'' ⟨rfl, hstays⟩
    rw [hat]
    exact .pure ⟨rfl, hstays⟩
  refine .bind hnone ?_
  rintro _ s'' ⟨rfl, hfaces', hposition'⟩
  exact .pure ⟨rfl, ⟨ws, hfaces', rfl⟩, hposition'.trans hposition⟩

end Parser

/-- A production reads a tree from its words before other words, unless it is nested too
deep. -/
def Reads {f : Form} (x : Tokenized) (p : Parser (Tree f)) (t : Tree f) (rest : List Word) :
    Prop :=
  ∀ s : ParserState, s.cursor.FacesSingly x (t.words ++ rest) →
    Reaches p s fun u c => u.bare = t.bare ∧ c.FacesSingly x rest

/-- A production reads all types that have no annotations. -/
def ReadsTypes (x : Tokenized) (wild : Bool) (p : Parser (Node .type)) : Prop :=
  ∀ t, PlainType wild t → ∀ rest, (wordAt rest 0).kind.endsType = true → Reads x p t rest

namespace PlainType

variable {x : Tokenized} {s : ParserState} {g : Grammar} {wild : Bool} {t : Node .type}
  {ts : List (Node .type)} {rest : List Word}

/-- A type starts with a name or a keyword, a wildcard with a question mark. -/
theorem exists_words (h : PlainType wild t) : ∃ w ws, t.words = w :: ws ∧
    w.kind.startsType = true ∧ (wild = false → (w.kind == .question) = false) := by
  induction h with
  | primitive primitive => exact ⟨_, _, rfl, rfl, fun _ => rfl⟩
  | var => exact ⟨_, _, rfl, rfl, fun _ => rfl⟩
  | @classType wild span source segments hne hnames hlast harguments ih =>
    cases segments with
    | nil => exact absurd rfl hne
    | cons segment segments => exact ⟨.name segment.1, _, rfl, rfl, fun _ => rfl⟩
  | @array wild span source element n hflat helement ih =>
    obtain ⟨w, ws, hwords, hw, hquestion⟩ := ih
    refine ⟨w, ws ++ (Tree.ofList (List.replicate (n + 1) (.dimension .nil))).words, ?_, hw,
      fun _ => hquestion rfl⟩
    change Piece.words (element.pieces ++ _) = _
    rw [Piece.words_append, show Piece.words element.pieces = w :: ws from hwords]
    rfl
  | wildcard => exact ⟨_, _, rfl, rfl, nofun⟩
  | extendsBound => exact ⟨_, _, rfl, rfl, nofun⟩
  | superBound => exact ⟨_, _, rfl, rfl, nofun⟩

/-! ### Arguments -/

/-- The arguments of a type, of which there is one at least, are read up to the angle. -/
theorem reaches_arguments (hg : ReadsTypes x true g.typeArgument) (hts : ∀ t ∈ ts, PlainType true t)
    (hne : ts ≠ [])
    (h : s.cursor.FacesSingly x ((Tree.ofList ts).words ++ .angle :: rest)) :
    Reaches (separatedBy .comma g.typeArgument) s fun as c =>
      as.map Tree.bare = ts.map Tree.bare ∧ c.FacesSingly x (.angle :: rest) := by
  refine .loop (n := ts.length)
    (I := fun n as c => ∃ left, left.length = n ∧ left ≠ [] ∧ (∀ t ∈ left, PlainType true t) ∧
      as.reverse.map Tree.bare ++ left.map Tree.bare = ts.map Tree.bare ∧
      c.FacesSingly x ((Tree.ofList left).words ++ .angle :: rest))
    ⟨ts, rfl, hne, hts, rfl, h⟩ ?_ ?_
  · have hwords : ts.length ≤ (Tree.ofList ts).words.length := by
      refine Tree.length_le_words_ofList fun t ht hnil => ?_
      obtain ⟨w, ws, hwords, -, -⟩ := (hts t ht).exists_words
      rw [hnil] at hwords
      cases hwords
    refine Nat.lt_of_le_of_lt (Nat.le_trans hwords ?_) (length_lt_loopBound h)
    rw [List.length_append]
    exact Nat.le_add_right _ _
  · rintro n as s ⟨left, rfl, hleft, hplain, hbare, h⟩
    cases left with
    | nil => exact absurd rfl hleft
    | cons t left =>
      have ht := hplain t List.mem_cons_self
      cases left with
      | nil =>
        rw [Tree.words_ofList_singleton] at h
        refine .bind (hg t ht _ rfl s h) ?_
        rintro u s' ⟨hu, h⟩
        refine .bind (reaches_eat_other_singly h rfl rfl) ?_
        rintro _ s'' ⟨rfl, h⟩
        refine .pure ⟨?_, h⟩
        rw [← hbare, List.reverse_cons, List.map_append, List.map_singleton, hu]
        rfl
      | cons t' left =>
        rw [Tree.words_ofList_cons_cons, List.append_assoc, List.append_assoc] at h
        refine .bind (hg t ht _ rfl s h) ?_
        rintro u s' ⟨hu, h⟩
        refine .bind (reaches_eat_singly h rfl nofun nofun) ?_
        rintro _ s'' ⟨rfl, h⟩
        refine .pure ⟨left.length + 1, Nat.lt_succ_self _, t' :: left, rfl, nofun,
          fun v hv => hplain v (List.mem_cons_of_mem _ hv), ?_, h⟩
        rw [← hbare, List.reverse_cons, List.map_append, List.map_singleton, hu,
          List.append_assoc]
        rfl

/-- The arguments of a type are read with their angles. -/
theorem reaches_typeArguments (hg : ReadsTypes x true g.typeArgument)
    (hts : ∀ t ∈ ts, PlainType true t)
    (h : s.cursor.FacesSingly x (.sign .less :: ((Tree.ofList ts).words ++ .angle :: rest))) :
    Reaches g.typeArguments s fun as c =>
      as.map Tree.bare = ts.map Tree.bare ∧ c.FacesSingly x rest := by
  unfold typeArguments
  obtain ⟨ws, hfaces, hws⟩ := h.exists_faces nofun
  refine .bind (reaches_expect hfaces rfl nofun) ?_
  rintro _ s' ⟨-, hfaces⟩
  have h : s'.cursor.FacesSingly x ((Tree.ofList ts).words ++ .angle :: rest) := ⟨ws, hfaces, hws⟩
  cases ts with
  | nil => exact reaches_closing h rfl fun _ s h => .pure ⟨rfl, h⟩
  | cons t ts =>
    have hfirst : (wordAt ((Tree.ofList (t :: ts)).words ++ .angle :: rest) 0).kind.startsType = true := by
      obtain ⟨w, ws, hwords, hw, -⟩ := (hts t List.mem_cons_self).exists_words
      cases ts with
      | nil =>
        rw [Tree.words_ofList_singleton, hwords]
        exact hw
      | cons u us =>
        rw [Tree.words_ofList_cons_cons, hwords]
        exact hw
    refine reaches_closing_other h ?_ ?_ fun s h => ?_
    · intro hgreater
      rw [hgreater] at hfirst
      cases hfirst
    · generalize (wordAt _ 0).kind = kind at hfirst
      cases kind <;> first | rfl | cases hfirst
    · refine .bind (reaches_arguments hg hts nofun h) ?_
      rintro as s ⟨hbare, h⟩
      refine .bind (reaches_closing h rfl (Q := fun _ c => c.FacesSingly x rest)
        fun _ s h => .pure h) ?_
      rintro _ s h
      exact .pure ⟨hbare, h⟩

/-! ### Class types -/

/-- A segment is read with its arguments. -/
theorem reaches_segment (hg : ReadsTypes x true g.typeArgument)
    {segment : String × Option (List (Node .type))}
    (hsegment : ∀ ts, segment.2 = some ts → ∀ t ∈ ts, PlainType true t)
    (hrest : ((wordAt rest 0).kind == .less) = false)
    (h : s.cursor.FacesSingly x ((Tree.plainSegment segment).words ++ rest)) :
    Reaches (g.segment []) s fun u c =>
      u.bare = (Tree.plainSegment segment).bare ∧ c.FacesSingly x rest := by
  obtain ⟨name, arguments⟩ := segment
  unfold Grammar.segment typeArguments?
  obtain ⟨ws, hfaces, hws⟩ := FacesSingly.exists_faces (w := .name name) h nofun
  refine .bind (reaches_expectIdentifier hfaces rfl) ?_
  rintro read s' ⟨hread, hfaces⟩
  change read = name at hread
  subst read
  cases arguments with
  | none =>
    have h : s'.cursor.FacesSingly x rest := ⟨ws, hfaces, hws⟩
    refine .bind (Q := fun found c => found = none ∧ c.FacesSingly x rest) ?_ ?_
    · refine .bind (reaches_check_singly h rfl) ?_
      rintro _ s'' ⟨rfl, h⟩
      rw [hrest]
      exact .pure ⟨rfl, h⟩
    · rintro _ s'' ⟨rfl, h⟩
      exact .pure ⟨rfl, h⟩
  | some ts =>
    have hwords : (Tree.plainSegment (name, some ts)).words ++ rest =
        .name name :: .sign .less :: ((Tree.ofList ts).words ++ .angle :: rest) := by
      change (.name name :: Piece.words
        ([.word (.sign .less)] ++ (Tree.ofList ts).pieces ++ [.word .angle])) ++ rest = _
      rw [Piece.words_append, Piece.words_append, List.cons_append, List.append_assoc,
        List.append_assoc]
      rfl
    have h : s'.cursor.FacesSingly x
        (.sign .less :: ((Tree.ofList ts).words ++ .angle :: rest)) :=
      ⟨ws, hfaces, hws.trans (List.cons.inj hwords).2⟩
    refine .bind (Q := fun found c =>
      (∃ as, found = some as ∧ as.map Tree.bare = ts.map Tree.bare) ∧ c.FacesSingly x rest) ?_ ?_
    · refine .bind (reaches_check_singly h rfl) ?_
      rintro _ s'' ⟨rfl, h⟩
      refine .bind (reaches_typeArguments hg (hsegment ts rfl) h) ?_
      rintro as s'' ⟨hbare, h⟩
      exact .pure ⟨⟨as, rfl, hbare⟩, h⟩
    · rintro _ s'' ⟨⟨as, rfl, hbare⟩, h⟩
      refine .pure ⟨?_, h⟩
      change Tree.classTypeSegment .nil name (.present (Tree.ofList as).bare) =
        .classTypeSegment .nil name (.present (Tree.ofList ts).bare)
      rw [Tree.bare_ofList, Tree.bare_ofList, hbare]

/-- Before the dot of another segment, a class type goes on. -/
theorem reaches_atSegment {us : List Word} (hus : (wordAt us 0).kind = .identifier)
    (h : s.cursor.FacesSingly x (.sign .dot :: us)) :
    Reaches atSegment s fun b c => b = true ∧ c.FacesSingly x (.sign .dot :: us) := by
  refine .bind (reaches_check_singly h rfl) ?_
  rintro _ s' ⟨rfl, h⟩
  refine .bind (reaches_peekKind_singly h rfl) ?_
  rintro next s' ⟨hnext, h⟩
  refine .pure ⟨?_, h⟩
  rw [hnext .identifier rfl, hus]
  rfl

/-- Without a dot no further segment is read. -/
theorem reaches_atSegment_other (hrest : ((wordAt rest 0).kind == .dot) = false)
    (h : s.cursor.FacesSingly x rest) :
    Reaches atSegment s fun b c => b = false ∧ c.FacesSingly x rest := by
  refine .bind (reaches_check_singly h rfl) ?_
  rintro _ s' ⟨rfl, h⟩
  rw [hrest]
  exact .pure ⟨rfl, h⟩

/-- The words of segments and the dots before them. -/
def furtherWords (segments : List (String × Option (List (Node .type)))) : List Word :=
  segments.flatMap fun segment => .sign .dot :: (Tree.plainSegment segment).words

/-- The words of segments in a row are those of the first and of the further ones. -/
theorem words_segments (segment : String × Option (List (Node .type)))
    (segments : List (String × Option (List (Node .type)))) :
    (Tree.ofList ((segment :: segments).map Tree.plainSegment)).words =
      (Tree.plainSegment segment).words ++ furtherWords segments := by
  induction segments generalizing segment with
  | nil => exact (Tree.words_ofList_singleton _).trans (List.append_nil _).symm
  | cons next segments ih =>
    have hwords := Tree.words_ofList_cons_cons (Tree.plainSegment segment)
      (Tree.plainSegment next) (segments.map Tree.plainSegment)
    refine hwords.trans (congrArg ((Tree.plainSegment segment).words ++ ·) ?_)
    exact congrArg (Word.sign .dot :: ·) (ih next)

/-- A class type of which some segments have been found, with the name of the last one, and
some are left. -/
structure Underway (segments : List (String × Option (List (Node .type)))) (last : Token)
    (found : List (Tree .classTypeSegment)) (left : List (String × Option (List (Node .type)))) :
    Prop where
  subset : left ⊆ segments
  last_eq : (last.source :: left.map Prod.fst).getLast? = (segments.map Prod.fst).getLast?
  bare_eq : found.reverse.map Tree.bare ++ left.map (Tree.plainSegment · |>.bare) =
    segments.map (Tree.plainSegment · |>.bare)

/-- A class type is underway when its first segment was found. -/
theorem Underway.start {first : String × Option (List (Node .type))}
    {left : List (String × Option (List (Node .type)))} {token : Token}
    {found : Tree .classTypeSegment} (htoken : token.word = .name first.1)
    (hfound : found.bare = (Tree.plainSegment first).bare) :
    Underway (first :: left) token [found] left where
  subset := List.subset_cons_self _ _
  last_eq := by
    rw [show token.source = first.1 from congrArg Word.text htoken]
    rfl
  bare_eq := by
    rw [List.map_cons, ← hfound]
    rfl

/-- One more segment takes a class type on. -/
theorem Underway.next {segments : List (String × Option (List (Node .type)))} {last token : Token}
    {found : List (Tree .classTypeSegment)} {next : String × Option (List (Node .type))}
    {left : List (String × Option (List (Node .type)))} {segment : Tree .classTypeSegment}
    (h : Underway segments last found (next :: left)) (htoken : token.word = .name next.1)
    (hsegment : segment.bare = (Tree.plainSegment next).bare) :
    Underway segments token (segment :: found) left where
  subset := fun _ hs => h.subset (List.mem_cons_of_mem _ hs)
  last_eq := by
    rw [show token.source = next.1 from congrArg Word.text htoken, ← h.last_eq]
    rfl
  bare_eq := by
    rw [← h.bare_eq, List.reverse_cons, List.map_append, List.append_assoc, List.map_singleton,
      hsegment]
    rfl

/-- When no segment is left, the class type has been found. -/
theorem Underway.bare_classType {segments : List (String × Option (List (Node .type)))}
    {last : Token} {found : List (Tree .classTypeSegment)} (h : Underway segments last found []) :
    (Tree.ofList found.reverse).bare = (Tree.ofList (segments.map Tree.plainSegment)).bare := by
  have hbare := h.bare_eq
  rw [List.map_nil, List.append_nil] at hbare
  rw [Tree.bare_ofList, Tree.bare_ofList, hbare, List.map_map]
  rfl

/-- A class type is read whose last name may name a type. -/
theorem reaches_classTypeFrom (hg : ReadsTypes x true g.typeArgument)
    {segments : List (String × Option (List (Node .type)))} (hne : segments ≠ [])
    (hlast : ∀ s, segments.getLast? = some s → isRestrictedTypeName s.1 = false)
    (harguments : ∀ s ∈ segments, ∀ ts, s.2 = some ts → ∀ t ∈ ts, PlainType true t)
    (hrest : (wordAt rest 0).kind.endsElement = true) (start : Nat)
    (h : s.cursor.FacesSingly x ((Tree.ofList (segments.map Tree.plainSegment)).words ++ rest)) :
    Reaches (g.classTypeFrom start []) s fun u c =>
      u.bare = (Tree.located (.classType (.ofList (segments.map Tree.plainSegment))) .nowhere
        "").bare ∧ c.FacesSingly x rest := by
  have hdot : ((wordAt rest 0).kind == .dot) = false := TokenKind.beq_false_of_bool hrest rfl
  have hless (left : List (String × Option (List (Node .type)))) :
      ((wordAt (furtherWords left ++ rest) 0).kind == .less) = false := by
    cases left with
    | nil => exact TokenKind.beq_false_of_bool hrest rfl
    | cons => rfl
  cases segments with
  | nil => exact absurd rfl hne
  | cons first left =>
    rw [words_segments, List.append_assoc] at h
    unfold classTypeFrom
    refine .bind (reaches_peek_singly (w := .name first.1) h nofun) ?_
    rintro token s' ⟨htoken, h⟩
    refine .bind (reaches_segment hg (harguments first List.mem_cons_self) (hless left) h) ?_
    rintro segment s' ⟨hsegment, h⟩
    have hlength : left.length < loopBound s' := by
      refine Nat.lt_of_le_of_lt ?_ (length_lt_loopBound h)
      have hwords : left.length ≤ (furtherWords left).length :=
        length_le_length_flatMap fun _ _ => nofun
      simp only [List.length_append]
      omega
    refine .bind (Q := fun segments c =>
      Underway (first :: left) segments.1 segments.2.reverse [] ∧ c.FacesSingly x rest)
      (.loop (I := fun n segments c => ∃ further, further.length = n ∧
          Underway (first :: left) segments.1 segments.2 further ∧
          c.FacesSingly x (furtherWords further ++ rest))
        ⟨left, rfl, .start htoken hsegment, h⟩ hlength ?_) ?_
    · rintro n ⟨last, found⟩ s ⟨further, rfl, hunderway, h⟩
      cases further with
      | nil =>
        refine .bind (reaches_atSegment_other hdot h) ?_
        rintro _ s ⟨rfl, h⟩
        refine .pure ⟨?_, h⟩
        rw [List.reverse_reverse]
        exact hunderway
      | cons next further =>
        have hwords : furtherWords (next :: further) ++ rest = .sign .dot ::
            ((Tree.plainSegment next).words ++ (furtherWords further ++ rest)) := by
          rw [furtherWords, List.flatMap_cons, List.append_assoc]
          rfl
        rw [hwords] at h
        refine .bind (reaches_atSegment rfl h) ?_
        rintro _ s ⟨rfl, h⟩
        refine .bind (reaches_advance_singly h nofun nofun) ?_
        rintro _ s h
        refine .bind (reaches_annotations g h rfl) ?_
        rintro _ s ⟨rfl, h, -⟩
        refine .bind (reaches_peek_singly (w := .name next.1) h nofun) ?_
        rintro token s ⟨htoken, h⟩
        refine .bind (reaches_segment hg (harguments next (hunderway.subset List.mem_cons_self))
          (hless further) h) ?_
        rintro segment s ⟨hsegment, h⟩
        exact .pure ⟨further.length, Nat.lt_succ_self _, further, rfl,
          hunderway.next htoken hsegment, h⟩
    · rintro ⟨last, found⟩ s ⟨hunderway, h⟩
      have hfree : isRestrictedTypeName last.source = false := by
        have hname := hunderway.last_eq
        rw [List.map_nil, List.getLast?_singleton, List.getLast?_map] at hname
        obtain ⟨segment, hsegment, hname⟩ := Option.map_eq_some_iff.mp hname.symm
        rw [← hname]
        exact hlast segment hsegment
      have hbare := hunderway.bare_classType
      rw [List.reverse_reverse] at hbare
      dsimp only
      rw [hfree]
      refine (reaches_node start _).mono ?_
      rintro u c ⟨hu, rfl⟩
      refine ⟨hu.trans ?_, h⟩
      change Tree.located (.classType (Tree.ofList found).bare) _ _ =
        Tree.located (.classType (Tree.ofList _).bare) _ _
      rw [hbare]

/-! ### Wildcards -/

/-- A wildcard is read with its bound, if it has one. -/
theorem reads_wildcard (bound : Tree (.option .wildcardBound)) {span : Span} {source : String}
    (hbound : ∀ s : ParserState, s.cursor.FacesSingly x (bound.words ++ rest) →
      Reaches g.wildcardBound? s fun found c =>
        (Tree.ofOption found).bare = bound.bare ∧ c.FacesSingly x rest) :
    Reads x g.typeArgument (.located (.wildcardType .nil bound) span source) rest := by
  intro s h
  unfold typeArgument
  refine .position (.bind (reaches_annotations g h rfl) ?_)
  rintro _ s' ⟨rfl, h, -⟩
  refine .bind (reaches_eat_singly (w := .sign .question) h rfl nofun nofun) ?_
  rintro _ s' ⟨rfl, h⟩
  refine .bind (hbound s' h) ?_
  rintro found s' ⟨hfound, h⟩
  refine (reaches_node _ _).mono ?_
  rintro u c ⟨hu, rfl⟩
  refine ⟨hu.trans ?_, h⟩
  change Tree.located (.wildcardType .nil (Tree.ofOption found).bare) _ _ =
    Tree.located (.wildcardType .nil bound.bare) _ _
  rw [hfound]

/-- A type is read as an argument once it is clear that it is no wildcard. -/
theorem reads_typeArgument (hg : ReadsTypes x false g.type) (ht : PlainType false t)
    (hrest : (wordAt rest 0).kind.endsType = true) : Reads x g.typeArgument t rest := by
  intro s h
  obtain ⟨w, ws, hwords, hw, hquestion⟩ := ht.exists_words
  have hat : ((wordAt (t.words ++ rest) 0).kind == .at) = false := by
    rw [hwords]
    exact TokenKind.beq_false_of_bool hw rfl
  have hquestion : ((wordAt (t.words ++ rest) 0).kind == .question) = false := by
    rw [hwords]
    exact hquestion rfl
  unfold typeArgument
  refine .position (.bind (reaches_annotations g h hat) ?_)
  rintro _ s' ⟨rfl, ⟨ws, hfaces, hws⟩, hposition⟩
  rw [← hws, ← kind_beq_wordAt ws rfl] at hquestion
  refine .bind (reaches_eat_other hfaces hquestion) ?_
  rintro _ s'' ⟨rfl, hfaces, hposition'⟩
  refine .bind (reaches_restore hfaces (hposition'.trans hposition)) ?_
  rintro _ s hfaces
  exact hg t ht rest hrest s ⟨ws, hfaces, hws⟩

/-- The arguments of types are types and wildcards. -/
theorem readsTypes_typeArgument (hg : ReadsTypes x false g.type) :
    ReadsTypes x true g.typeArgument := by
  intro t ht rest hrest
  have hkeyword (keyword : Keyword) : ((wordAt rest 0).kind == .keyword keyword) = false :=
    TokenKind.beq_false_of_bool hrest rfl
  cases ht with
  | primitive primitive => exact reads_typeArgument hg (.primitive primitive) hrest
  | var => exact reads_typeArgument hg .var hrest
  | classType hne hnames hlast harguments =>
    exact reads_typeArgument hg (.classType hne hnames hlast harguments) hrest
  | array n hflat helement => exact reads_typeArgument hg (.array n hflat helement) hrest
  | wildcard =>
    refine reads_wildcard .absent fun s h => ?_
    refine .bind (reaches_eat_other_singly h rfl (hkeyword .extends)) ?_
    rintro _ s ⟨rfl, h⟩
    refine .bind (reaches_eat_other_singly h rfl (hkeyword .super)) ?_
    rintro _ s ⟨rfl, h⟩
    exact .pure ⟨rfl, h⟩
  | @extendsBound span source bound hbound =>
    refine reads_wildcard (.present (.extendsBound bound)) fun s h => ?_
    have hwords : (Tree.present (.extendsBound bound)).words ++ rest =
        .sign (.keyword .extends) :: (bound.words ++ rest) := by
      change Piece.words ([] ++ _ ++ []) ++ rest = _
      rw [List.append_nil]
      rfl
    rw [hwords] at h
    refine .bind (reaches_eat_singly h rfl nofun nofun) ?_
    rintro _ s ⟨rfl, h⟩
    refine .bind (hg bound hbound rest hrest s h) ?_
    rintro u s ⟨hu, h⟩
    refine .pure ⟨?_, h⟩
    change Tree.present (.extendsBound u.bare) = .present (.extendsBound bound.bare)
    rw [hu]
  | @superBound span source bound hbound =>
    refine reads_wildcard (.present (.superBound bound)) fun s h => ?_
    have hwords : (Tree.present (.superBound bound)).words ++ rest =
        .sign (.keyword .super) :: (bound.words ++ rest) := by
      change Piece.words ([] ++ _ ++ []) ++ rest = _
      rw [List.append_nil]
      rfl
    rw [hwords] at h
    refine .bind (reaches_eat_other_singly h rfl rfl) ?_
    rintro _ s ⟨rfl, h⟩
    refine .bind (reaches_eat_singly h rfl nofun nofun) ?_
    rintro _ s ⟨rfl, h⟩
    refine .bind (hg bound hbound rest hrest s h) ?_
    rintro u s ⟨hu, h⟩
    refine .pure ⟨?_, h⟩
    change Tree.present (.superBound u.bare) = .present (.superBound bound.bare)
    rw [hu]

/-! ### Types -/

/-- A primitive type is recognized by its keyword. -/
theorem reaches_primitive? (keyword : Keyword) {us : List Word}
    (h : s.cursor.FacesSingly x (.sign (.keyword keyword) :: us)) :
    Reaches primitive? s fun found c => found = PrimitiveType.ofKeyword? keyword ∧
      c.FacesSingly x (.sign (.keyword keyword) :: us) := by
  refine .bind (reaches_currentKind_singly h nofun) ?_
  rintro _ s ⟨rfl, h⟩
  exact .pure ⟨rfl, h⟩

/-- Before a name, there is no primitive type. -/
theorem reaches_primitive?_name {name : String} {us : List Word}
    (h : s.cursor.FacesSingly x (.name name :: us)) :
    Reaches primitive? s fun found c => found = none ∧ c.FacesSingly x (.name name :: us) := by
  refine .bind (reaches_currentKind_singly h nofun) ?_
  rintro _ s ⟨rfl, h⟩
  exact .pure ⟨rfl, h⟩

/-- The word `var` is a type unless a class type goes on behind it. -/
theorem reaches_atVar {name : String} {us : List Word} {isVar : Bool}
    (hvar : (name == "var" && !((wordAt us 0).kind == .dot || (wordAt us 0).kind == .less)) = isVar)
    (h : s.cursor.FacesSingly x (.name name :: us)) :
    Reaches atVar s fun b c => b = isVar ∧ c.FacesSingly x (.name name :: us) := by
  have hword : Reaches (checkWord "var") s fun b c =>
      b = (name == "var") ∧ c.FacesSingly x (.name name :: us) := by
    refine .bind (reaches_peek_singly h nofun) ?_
    rintro t s ⟨htoken, h⟩
    refine .pure ⟨?_, h⟩
    have hkind : t.kind = .identifier := congrArg Word.kind htoken
    have hsource : t.source = name := congrArg Word.text htoken
    rw [Token.isWord, hkind, hsource]
    rfl
  refine .bind hword ?_
  rintro _ s ⟨rfl, h⟩
  rw [← hvar]
  cases name == "var" with
  | false => exact .pure ⟨rfl, h⟩
  | true =>
    refine .bind (reaches_peekKind_singly h rfl) ?_
    rintro next s ⟨hnext, h⟩
    refine .pure ⟨?_, h⟩
    rw [hnext .dot rfl, hnext .less rfl]
    rfl

/-- A class type starts with a name that is not taken for the type `var`. -/
theorem exists_segments_words (rest : List Word)
    {segments : List (String × Option (List (Node .type)))} (hne : segments ≠ [])
    (hlast : ∀ s, segments.getLast? = some s → isRestrictedTypeName s.1 = false) :
    ∃ name us, (Tree.ofList (segments.map Tree.plainSegment)).words ++ rest = .name name :: us ∧
      (name == "var" && !((wordAt us 0).kind == .dot || (wordAt us 0).kind == .less)) = false := by
  cases segments with
  | nil => exact absurd rfl hne
  | cons first left =>
    obtain ⟨name, arguments⟩ := first
    refine ⟨name, Piece.words (Tree.ofOption (arguments.map .ofList)).pieces ++
      (furtherWords left ++ rest), ?_, ?_⟩
    · rw [words_segments, List.append_assoc]
      rfl
    · cases arguments with
      | some ts => exact Bool.and_false _
      | none =>
        cases left with
        | cons next left => exact Bool.and_false _
        | nil =>
          have hfree := hlast (name, none) rfl
          have hvar : (name == "var") = false := by
            apply beq_false_of_ne
            rintro rfl
            cases hfree
          rw [hvar]
          rfl

/-- Types without dimensions are read up to what ends them. -/
theorem reads_elementType (hg : ReadsTypes x true g.typeArgument) (ht : PlainType false t)
    (hflat : ¬ t.inner.IsArray) (hrest : (wordAt rest 0).kind.endsElement = true) :
    Reads x (g.elementType true) t rest := by
  intro s h
  obtain ⟨w, ws, hwords, hw, -⟩ := ht.exists_words
  have hat : ((wordAt (t.words ++ rest) 0).kind == .at) = false := by
    rw [hwords]
    exact TokenKind.beq_false_of_bool hw rfl
  have hdot : ((wordAt rest 0).kind == .dot) = false := TokenKind.beq_false_of_bool hrest rfl
  have hless : ((wordAt rest 0).kind == .less) = false := TokenKind.beq_false_of_bool hrest rfl
  unfold elementType
  refine .position (.bind (reaches_annotations g h hat) ?_)
  rintro _ s' ⟨rfl, h, -⟩
  cases ht with
  | primitive primitive =>
    refine .bind (reaches_primitive? primitive.keyword h) ?_
    rintro found s ⟨hfound, h⟩
    obtain rfl : found = some primitive := by
      rw [hfound]
      cases primitive <;> rfl
    refine .bind (reaches_advance_singly h nofun nofun) ?_
    rintro _ s h
    refine (reaches_node _ _).mono ?_
    rintro u c ⟨hu, rfl⟩
    exact ⟨hu, h⟩
  | var =>
    change FacesSingly x (.name "var" :: rest) _ at h
    refine .bind (reaches_primitive?_name h) ?_
    rintro _ s ⟨rfl, h⟩
    have hvar : ("var" == "var" &&
        !((wordAt rest 0).kind == .dot || (wordAt rest 0).kind == .less)) = true := by
      rw [hdot, hless]
      rfl
    refine .bind (reaches_atVar hvar h) ?_
    rintro _ s ⟨rfl, h⟩
    refine .bind (reaches_advance_singly h nofun nofun) ?_
    rintro _ s h
    refine (reaches_node _ _).mono ?_
    rintro u c ⟨hu, rfl⟩
    exact ⟨hu, h⟩
  | @classType _ span source segments hne hnames hlast harguments =>
    obtain ⟨name, us, hus, hvar⟩ := exists_segments_words rest hne hlast
    change FacesSingly x ((Tree.ofList (segments.map Tree.plainSegment)).words ++ rest) _ at h
    rw [hus] at h
    refine .bind (reaches_primitive?_name h) ?_
    rintro _ s ⟨rfl, h⟩
    refine .bind (reaches_atVar hvar h) ?_
    rintro _ s ⟨rfl, h⟩
    rw [← hus] at h
    exact reaches_classTypeFrom hg hne hlast harguments hrest _ h
  | array n hflat' helement => exact absurd ⟨_, _, rfl⟩ hflat

/-- Brackets are a dimension. -/
theorem reaches_dimension? {us : List Word}
    (h : s.cursor.FacesSingly x (.sign .leftBracket :: .sign .rightBracket :: us)) :
    Reaches g.dimension? s fun found c =>
      found = some (.dimension .nil) ∧ c.FacesSingly x us := by
  have hat : Reaches atDimension s fun b c => b = true ∧
      c.FacesSingly x (.sign .leftBracket :: .sign .rightBracket :: us) := by
    refine .bind (reaches_currentKind_singly h nofun) ?_
    rintro _ s ⟨rfl, h⟩
    exact .pure ⟨rfl, h⟩
  refine .bind hat ?_
  rintro _ s ⟨rfl, h⟩
  refine .position (.bind (reaches_annotations g h rfl) ?_)
  rintro _ s ⟨rfl, h, -⟩
  have hpair : Reaches (checkPair .leftBracket .rightBracket) s fun b c => b = true ∧
      c.FacesSingly x (.sign .leftBracket :: .sign .rightBracket :: us) := by
    refine .bind (reaches_check_singly h rfl) ?_
    rintro _ s ⟨rfl, h⟩
    refine .bind (reaches_peekKind_singly h rfl) ?_
    rintro next s ⟨hnext, h⟩
    exact .pure ⟨hnext .rightBracket rfl, h⟩
  refine .bind hpair ?_
  rintro _ s ⟨rfl, h⟩
  refine .bind (reaches_advance_singly h nofun nofun) ?_
  rintro _ s h
  refine .bind (reaches_advance_singly h nofun nofun) ?_
  rintro _ s h
  exact .pure ⟨rfl, h⟩

/-- No dimension is read before a token at which a type ends. -/
theorem reaches_dimension?_none (hrest : (wordAt rest 0).kind.endsType = true)
    (h : s.cursor.FacesSingly x rest) :
    Reaches g.dimension? s fun found c => found = none ∧ c.FacesSingly x rest := by
  have hbracket : ((wordAt rest 0).kind == .leftBracket) = false :=
    TokenKind.beq_false_of_bool hrest rfl
  have hannotation : ((wordAt rest 0).kind == .at) = false := TokenKind.beq_false_of_bool hrest rfl
  have hat : Reaches atDimension s fun b c => b = false ∧ c.FacesSingly x rest := by
    obtain ⟨ws, hfaces, rfl⟩ := h
    rw [← kind_beq_wordAt ws rfl] at hbracket hannotation
    refine .bind (reaches_currentKind hfaces) ?_
    rintro _ s ⟨rfl, hfaces, -⟩
    refine .pure ⟨?_, ws, hfaces, rfl⟩
    rw [hbracket, hannotation]
    rfl
  refine .bind hat ?_
  rintro _ s ⟨rfl, h⟩
  exact .pure ⟨rfl, h⟩

/-- Dimensions are read up to what ends a type. -/
theorem reaches_dimensions (n : Nat) (hrest : (wordAt rest 0).kind.endsType = true)
    (h : s.cursor.FacesSingly x
      ((Tree.ofList (List.replicate n (Tree.dimension .nil))).words ++ rest)) :
    Reaches (many g.dimension?) s fun ds c =>
      ds.map Tree.bare = List.replicate n (Tree.dimension .nil) ∧ c.FacesSingly x rest := by
  have hwords (n : Nat) : (Tree.ofList (List.replicate (n + 1) (Tree.dimension .nil))).words =
      .sign .leftBracket :: .sign .rightBracket ::
        (Tree.ofList (List.replicate n (Tree.dimension .nil))).words := by
    cases n <;> rfl
  have hlength : n < loopBound s := by
    have hle : n ≤ (Tree.ofList (List.replicate n (Tree.dimension .nil))).words.length := by
      refine Nat.le_trans (Nat.le_of_eq List.length_replicate.symm)
        (Tree.length_le_words_ofList fun t ht => ?_)
      rw [List.eq_of_mem_replicate ht]
      exact nofun
    have hbound := length_lt_loopBound h
    rw [List.length_append] at hbound
    omega
  refine .loop (n := n) (I := fun k ds c => k ≤ n ∧
    ds.map Tree.bare = List.replicate (n - k) (Tree.dimension .nil) ∧
    c.FacesSingly x ((Tree.ofList (List.replicate k (Tree.dimension .nil))).words ++ rest))
    ⟨Nat.le_refl n, by rw [Nat.sub_self]; rfl, h⟩ hlength ?_
  rintro k ds s ⟨hk, hds, h⟩
  cases k with
  | zero =>
    refine .bind (reaches_dimension?_none hrest h) ?_
    rintro _ s ⟨rfl, h⟩
    refine .pure ⟨?_, h⟩
    rw [List.map_reverse, hds, List.reverse_replicate, Nat.sub_zero]
  | succ k =>
    rw [hwords] at h
    refine .bind (reaches_dimension? h) ?_
    rintro _ s ⟨rfl, h⟩
    refine .pure ⟨k, Nat.lt_succ_self k, by omega, ?_, h⟩
    rw [List.map_cons, hds, show n - k = n - (k + 1) + 1 by omega]
    rfl

/-- A type without dimensions is read if the arguments inside it are. -/
theorem reads_typeBody (hg : ReadsTypes x true g.typeArgument) (ht : PlainType false t)
    (hflat : ¬ t.inner.IsArray) (hrest : (wordAt rest 0).kind.endsType = true) :
    Reads x g.typeBody t rest := by
  intro s h
  have hends : (wordAt rest 0).kind.endsElement = true := by
    rw [TokenKind.endsElement, hrest, Bool.or_true]
  unfold typeBody
  refine .position (.bind (reads_elementType hg ht hflat hends s h) ?_)
  rintro u s ⟨hu, h⟩
  refine .bind (reaches_dimensions 0 hrest h) ?_
  rintro ds s ⟨hds, h⟩
  obtain rfl := List.map_eq_nil_iff.mp hds
  exact .pure ⟨hu, h⟩

/-- Types are read if the arguments inside them are. -/
theorem readsTypes_typeBody (hg : ReadsTypes x true g.typeArgument) :
    ReadsTypes x false g.typeBody := by
  intro t ht rest hrest
  cases ht with
  | primitive primitive => exact reads_typeBody hg (.primitive primitive) nofun hrest
  | var => exact reads_typeBody hg .var nofun hrest
  | classType hne hnames hlast harguments =>
    exact reads_typeBody hg (.classType hne hnames hlast harguments) nofun hrest
  | @array _ span source element n hflat hplain =>
    have hwords : (Tree.located (.arrayType element
        (.ofList (List.replicate (n + 1) (.dimension .nil)))) span source).words ++ rest =
        element.words ++
          ((Tree.ofList (List.replicate (n + 1) (Tree.dimension .nil))).words ++ rest) := by
      change Piece.words (element.pieces ++ _) ++ rest = _
      rw [Piece.words_append, List.append_assoc]
      rfl
    intro s h
    rw [hwords] at h
    unfold typeBody
    refine .position (.bind (reads_elementType hg hplain hflat (by cases n <;> rfl) s h) ?_)
    rintro u s' ⟨hu, h⟩
    refine .bind (reaches_dimensions (n + 1) hrest h) ?_
    rintro ds s' ⟨hds, h⟩
    cases ds with
    | nil => cases hds
    | cons d ds =>
      refine (reaches_node _ _).mono ?_
      rintro v c ⟨hv, rfl⟩
      refine ⟨hv.trans ?_, h⟩
      change Tree.located (.arrayType u.bare (Tree.ofList (d :: ds)).bare) _ _ =
        Tree.located (.arrayType element.bare (Tree.ofList _).bare) _ _
      rw [hu, Tree.bare_ofList, Tree.bare_ofList, hds, List.map_replicate]
      rfl

/-- The grammar reads types, however deep they are nested. -/
theorem readsTypes_levels (n : Nat) : ReadsTypes x false (levels n).type := by
  induction n with
  | zero =>
    intro t ht rest hrest s h
    obtain ⟨ws, hfaces, -⟩ := h
    exact reaches_refuseDepth hfaces
  | succ n ih =>
    intro t ht rest hrest s ⟨ws, hfaces, hws⟩
    exact reaches_guarded "type" hfaces fun s hfaces =>
      readsTypes_typeBody (readsTypes_typeArgument ih) t ht rest hrest s ⟨ws, hfaces, hws⟩

end PlainType

end JavaSyntax
