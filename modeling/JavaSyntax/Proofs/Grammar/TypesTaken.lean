import JavaSyntax.Proofs.Grammar.KindsAhead
import JavaSyntax.Proofs.Syntax.Reaches

/-!
# Types are taken as the recognizer passes them

Where neither annotations nor operators that start with `>=` come next, the grammar of types
takes exactly what the recognizer of types passes. It fails where the recognizer does, and
besides only because a name is restricted or productions are nested too deep.
-/

namespace JavaSyntax

open JavaSyntax.Parser

namespace TokenKind

/-- Whether a kind is neither the `@` of an annotation nor an operator that starts with `>` and
ends with `=`. -/
def isTame : TokenKind → Bool
  | .at | .greaterEqual | .shiftRightAssign | .unsignedShiftRightAssign => false
  | _ => true

end TokenKind

/-- A text whose tokens are all tame. -/
def Tokenized.IsTame (x : Tokenized) : Prop := ∀ t ∈ x.tokens, t.kind.isTame = true

/-- A token with a tame part is tame itself. -/
theorem Token.PartOf.isTame {v t : Token} (h : v.PartOf t) (hv : v.kind.isTame = true) :
    t.kind.isTame = true := by
  induction h with
  | whole => exact hv
  | head h hkind ih => rfl
  | @tail t kind h hkind ih =>
    change kind.isTame = true
    generalize t.kind = k at ih hkind
    cases k <;> cases hkind <;> first | rfl | cases ih

namespace Cursor

variable {x : Tokenized} {c : Cursor} {ks : List TokenKind} {k : TokenKind}

/-- Words ahead are tame if the text is. -/
theorem Faces.isTame {ws : List Word} (h : c.Faces x ws) (hx : x.IsTame) {w : Word} (hw : w ∈ ws) :
    w.kind.isTame = true := by
  obtain ⟨v, hv, t, hpart, rfl, -⟩ := h.exists_partOf hw
  exact hpart.isTame (hx v hv)

/-- A cursor on a text that has these kinds ahead if each closing angle counts for itself. -/
def FacesKinds (x : Tokenized) (ks : List TokenKind) (c : Cursor) : Prop :=
  ∃ ws, c.Faces x ws ∧ kindsAhead ws = ks

/-- Before a kind that is no angle stands a word of this kind. -/
theorem FacesKinds.exists_faces (h : c.FacesKinds x (k :: ks)) (hk : k ≠ .greater) :
    ∃ w ws, c.Faces x (w :: ws) ∧ w.kind = k ∧ k.isAngle = false ∧ kindsAhead ws = ks := by
  obtain ⟨ws, h, hks⟩ := h
  cases ws with
  | nil => cases hks
  | cons w ws => exact ⟨w, ws, h, kindsAhead_eq_cons hks hk⟩

/-- In a tame text no annotation is ahead. -/
theorem FacesKinds.ne_at (hx : x.IsTame) (h : c.FacesKinds x ks) (rest : List TokenKind) :
    ks ≠ .at :: rest := by
  rintro rfl
  obtain ⟨w, ws, hfaces, hw, -, -⟩ := h.exists_faces nofun
  have htame := hfaces.isTame hx List.mem_cons_self
  rw [hw] at htame
  cases htame

/-- There are no annotations. -/
theorem FacesKinds.annotations_eq (hx : x.IsTame) (h : c.FacesKinds x ks) :
    Recognizer.annotations ks = some ks := by
  refine Recognizer.annotations_of_not_at ?_
  unfold Recognizer.atAnnotation
  split
  · rfl
  · exact absurd rfl (h.ne_at hx _)
  · rfl

/-- What starts with a `>` in a tame text is made of angles. -/
theorem Faces.afterGreater?_eq_none {ws : List Word} (hx : x.IsTame) (h : c.Faces x ws)
    (hangle : Recognizer.closingAngle ((ws.flatMap Word.singles).map Word.kind) = none) :
    (wordAt (ws.flatMap Word.singles) 0).kind ≠ .greater ∧
      (wordAt (ws.flatMap Word.singles) 0).kind.afterGreater? = none := by
  cases hus : ws.flatMap Word.singles with
  | nil => exact ⟨nofun, rfl⟩
  | cons w us =>
    rw [hus, List.map_cons] at hangle
    have hw : w.kind ≠ .greater := by
      intro hw
      rw [hw] at hangle
      cases hangle
    refine ⟨hw, ?_⟩
    obtain ⟨v, vs, rest, rfl, hv, -⟩ := exists_of_flatMap_singles hus
    obtain ⟨hself, rfl⟩ := Word.singles_of_head? (by rw [hv]; rfl) hw
    have htame := h.isTame hx List.mem_cons_self
    have hone := congrArg List.length hself
    rw [wordAt_cons_zero]
    unfold Word.singles at hone
    split at hone
    · cases hone
    · cases hone
    · generalize v.kind = k at *
      cases k <;> first | rfl | contradiction

/-- The same kinds are ahead of a cursor that stands where another one does. -/
structure KeepsKinds (x : Tokenized) (ks : List TokenKind) (c c' : Cursor) : Prop where
  kinds : c'.FacesKinds x ks
  position_eq : c'.position = c.position

end Cursor

namespace Parser

open Cursor

variable {α β : Type} {x : Tokenized} {s : ParserState} {ks : List TokenKind} {k : TokenKind}
  {E : SyntaxError → Prop} {p : Parser α} {f : α → Parser β}

/-! ### Looking and taking -/

/-- A loop may take as many steps as there are kinds ahead. -/
theorem kinds_lt_loopBound (h : s.cursor.FacesKinds x ks) : ks.length < loopBound s := by
  obtain ⟨ws, hfaces, rfl⟩ := h
  rw [← map_kind_flatMap_singles, List.length_map]
  exact length_lt_loopBound ⟨ws, hfaces, rfl⟩

/-- A check for a solid kind finds out whether it is the first one ahead. -/
theorem kinds_check (h : s.cursor.FacesKinds x ks) (kind : TokenKind)
    (hkind : kind.isSolid = true) :
    Gives E (check kind) s fun b c =>
      (b = true ↔ ∃ rest, ks = kind :: rest) ∧ KeepsKinds x ks s.cursor c := by
  obtain ⟨ws, h, rfl⟩ := h
  refine (gives_check h kind).mono ?_
  rintro _ c ⟨rfl, hfaces, hposition⟩
  exact ⟨(shows_wordAt ws).beq_iff hkind, ⟨ws, hfaces, rfl⟩, hposition⟩

/-- The kind after the next one is seen, unless the next one is an angle. -/
theorem kinds_peekKind (h : s.cursor.FacesKinds x (k :: ks)) (hk : k ≠ .greater) :
    Gives E (peekKind 1) s fun k' c => Shows k' ks ∧ KeepsKinds x (k :: ks) s.cursor c := by
  obtain ⟨w, ws, hfaces, rfl, hangle, rfl⟩ := h.exists_faces hk
  refine (gives_peekKind hfaces 1).mono ?_
  rintro _ c ⟨rfl, hfaces, hposition⟩
  exact ⟨shows_wordAt ws, ⟨w :: ws, hfaces, kindsAhead_cons ws hangle⟩, hposition⟩

/-- A step passes the first kind ahead, unless it is an angle. -/
theorem kinds_advance (h : s.cursor.FacesKinds x (k :: ks)) (hk : k ≠ .greater) :
    Gives E advance s fun _ c => c.FacesKinds x ks := by
  obtain ⟨w, ws, hfaces, rfl, -, rfl⟩ := h.exists_faces hk
  refine (gives_advance hfaces (hfaces.kind_ne_endOfInput List.mem_cons_self)).mono ?_
  rintro t c ⟨-, hfaces⟩
  exact ⟨ws, hfaces, rfl⟩

/-- A solid kind is eaten exactly if it is the first one ahead. -/
theorem kinds_eat (h : s.cursor.FacesKinds x ks) (kind : TokenKind) (hkind : kind.isSolid = true) :
    Gives E (eat kind) s fun b c =>
      match b with
      | true => ∃ rest, ks = kind :: rest ∧ c.FacesKinds x rest
      | false => (∀ rest, ks ≠ kind :: rest) ∧ KeepsKinds x ks s.cursor c := by
  refine .bind (kinds_check h kind hkind) ?_
  rintro b s' ⟨hiff, hkeeps⟩
  cases b with
  | false => exact .pure ⟨fun rest heq => Bool.false_ne_true (hiff.mpr ⟨rest, heq⟩), hkeeps⟩
  | true =>
    obtain ⟨rest, rfl⟩ := hiff.mp rfl
    refine .bind (kinds_advance hkeeps.kinds (TokenKind.ne_greater_of_isSolid hkind)) ?_
    rintro t s'' hrest
    exact .pure ⟨rest, rfl, hrest⟩

/-- A solid kind that is the first one ahead is found where it is demanded. -/
theorem kinds_expect {kind : TokenKind} (h : s.cursor.FacesKinds x (kind :: ks))
    (hkind : kind.isSolid = true) : Gives E (expect kind) s fun _ c => c.FacesKinds x ks := by
  refine .bind (kinds_check h kind hkind) ?_
  rintro found s' ⟨hiff, hkeeps⟩
  rw [hiff.mpr ⟨ks, rfl⟩]
  exact kinds_advance hkeeps.kinds (TokenKind.ne_greater_of_isSolid hkind)

/-- A check for two solid kinds finds out whether they are the first ones ahead. -/
theorem kinds_checkPair (h : s.cursor.FacesKinds x ks) (kind next : TokenKind)
    (hkind : kind.isSolid = true) (hnext : next.isSolid = true) :
    Gives E (checkPair kind next) s fun b c =>
      (b = true ↔ ∃ rest, ks = kind :: next :: rest) ∧ KeepsKinds x ks s.cursor c := by
  refine .bind (kinds_check h kind hkind) ?_
  rintro b s' ⟨hiff, hkeeps⟩
  cases b with
  | false =>
    refine .pure ⟨⟨nofun, ?_⟩, hkeeps⟩
    rintro ⟨rest, rfl⟩
    exact hiff.mpr ⟨_, rfl⟩
  | true =>
    obtain ⟨ks, rfl⟩ := hiff.mp rfl
    refine .bind (kinds_peekKind hkeeps.kinds (TokenKind.ne_greater_of_isSolid hkind)) ?_
    rintro k s'' ⟨hshows, hkeeps'⟩
    refine .pure ⟨?_, hkeeps'.kinds, hkeeps'.position_eq.trans hkeeps.position_eq⟩
    rw [hshows.beq_iff hnext]
    simp

/-- A closing angle is taken if one comes next. -/
theorem kinds_closing (hx : x.IsTame) (h : s.cursor.FacesKinds x ks) {p : Token → Parser α}
    {q : Parser α} {Q : α → Cursor → Prop}
    (hp : ∀ t s rest, Recognizer.closingAngle ks = some rest → s.cursor.FacesKinds x rest →
      Gives E (p t) s Q)
    (hq : ∀ s : ParserState, Recognizer.closingAngle ks = none → s.cursor.FacesKinds x ks →
      Gives E q s Q) :
    Gives E (splitGreater >>= fun found => if found = true then advance >>= p else q) s Q := by
  obtain ⟨ws, hfaces, rfl⟩ := h
  have hsingly : s.cursor.FacesSingly x (ws.flatMap Word.singles) := ⟨ws, hfaces, rfl⟩
  have hkinds {us : List Word} {c : Cursor} (h : c.FacesSingly x us) :
      c.FacesKinds x (us.map Word.kind) := by
    obtain ⟨vs, h, rfl⟩ := h
    exact ⟨vs, h, (map_kind_flatMap_singles vs).symm⟩
  rw [← map_kind_flatMap_singles] at hp hq
  cases hangle : Recognizer.closingAngle ((ws.flatMap Word.singles).map Word.kind) with
  | some rest =>
    have hcons := Recognizer.eq_of_closingAngle hangle
    obtain ⟨w, us, hws, hw, rfl⟩ := List.map_eq_cons_iff.mp hcons
    rw [hws] at hsingly
    exact gives_closing hsingly hw fun t s hs => hp t s _ hangle (hkinds hs)
  | none =>
    have hother := hfaces.afterGreater?_eq_none hx hangle
    exact gives_closing_other hsingly hother.1 hother.2 fun s hs => hq s hangle (hkinds hs)

/-! ### Parsers that leave what recognizers leave -/

/-- An error that has nothing to do with kinds, or any error where something is broken. -/
def Fails (broken : Prop) (e : SyntaxError) : Prop :=
  e.code = .maxRecursionDepth ∨ e.code = .contextualKeyword ∨ broken

/-- A parser takes what a recognizer passes. It fails where the recognizer does, and besides only
with an error that has nothing to do with kinds. -/
def Leaves (x : Tokenized) (p : Parser α) (s : ParserState) (result : Option (List TokenKind)) :
    Prop :=
  Gives (Fails (result = none)) p s fun _ c => ∃ rest, result = some rest ∧ c.FacesKinds x rest

/-- An error that is allowed where something is broken is allowed where more is. -/
theorem Fails.imp {broken broken' : Prop} {e : SyntaxError} (h : Fails broken e)
    (hbroken : broken → broken') : Fails broken' e :=
  Or.imp_right (Or.imp_right hbroken) h

/-- Anything may be amiss where something is broken. -/
theorem gives_unexpected {text : String} {Q : α → Cursor → Prop} (h : s.cursor.FacesKinds x ks)
    (hE : ∀ e, E e) : Gives E (unexpected text) s Q := by
  obtain ⟨ws, hfaces, -⟩ := h
  refine Gives.bind (gives_peek hfaces 0) ?_
  rintro t s' -
  exact .of_error rfl (hE _)

/-- A name is found where it is demanded, or the first kind ahead is no name. -/
theorem kinds_expectIdentifier (h : s.cursor.FacesKinds x ks)
    (hE : (∀ rest, ks ≠ .identifier :: rest) → ∀ e, E e) :
    Gives E expectIdentifier s fun _ c => ∃ rest, ks = .identifier :: rest ∧
      c.FacesKinds x rest := by
  refine .bind (kinds_check h .identifier rfl) ?_
  rintro found s' ⟨hiff, hkeeps⟩
  cases found with
  | false =>
    refine gives_unexpected hkeeps.kinds (hE fun rest hks => ?_)
    exact Bool.false_ne_true (hiff.mpr ⟨rest, hks⟩)
  | true =>
    obtain ⟨rest, rfl⟩ := hiff.mp rfl
    refine .bind (kinds_advance hkeeps.kinds nofun) ?_
    rintro t s'' hrest
    exact .pure ⟨rest, rfl, hrest⟩

namespace Leaves

variable {o o' : Option (List TokenKind)}

/-- Parsers one after the other take what recognizers pass one after the other. -/
theorem seq (hp : Leaves x p s o) (hnone : o = none → o' = none)
    (hf : ∀ a s' rest, o = some rest → s'.cursor.FacesKinds x rest → Leaves x (f a) s' o') :
    Leaves x (p >>= f) s o' := by
  refine Gives.bind (Gives.weaken hp ?_) ?_
  · exact fun e he => he.imp hnone
  · rintro a s' ⟨rest, ho, hrest⟩
    exact hf a s' rest ho hrest

/-- A parser that does nothing takes what a recognizer passes that passes nothing. -/
theorem pure {a : α} (h : s.cursor.FacesKinds x ks) : Leaves x (Pure.pure a) s (some ks) :=
  Gives.pure ⟨ks, rfl, h⟩

/-- What comes next may change nothing. -/
theorem followed (hp : Leaves x p s o) (hf : ∀ a s', ∃ b, f a s' = (.ok b, s')) :
    Leaves x (p >>= f) s o := by
  refine hp.seq id ?_
  rintro a s' rest rfl hrest
  obtain ⟨b, hb⟩ := hf a s'
  exact .of_eq hb ⟨rest, rfl, hrest⟩

/-- What is made of a result takes nothing more. -/
theorem followed_pure {b : α → β} (hp : Leaves x p s o) :
    Leaves x (p >>= fun a => Pure.pure (b a)) s o := hp.followed fun a _ => ⟨b a, rfl⟩

/-- A node that is made of a result takes nothing more. -/
theorem followed_node {form : Form} {start : Nat} {tree : α → Tree form} (hp : Leaves x p s o) :
    Leaves x (p >>= fun a => node start (tree a)) s o :=
  hp.followed fun a s' => ⟨_, node_apply start (tree a) s'⟩

/-- A loop takes what a repetition passes if its steps do so. -/
theorem loop {step : α → Parser (Step α β)}
    {rstep : RecognizerStep} {a : α}
    (hshortens : Recognizer.Shortens rstep) (h : s.cursor.FacesKinds x ks)
    (hstep : ∀ (a : α) {s : ParserState} {ks : List TokenKind}, s.cursor.FacesKinds x ks →
      Gives (Fails (rstep ks = .done none)) (step a) s fun r c => match r with
        | .again _ => ∃ rest, rstep ks = .again rest ∧ c.FacesKinds x rest
        | .done _ => ∃ rest, rstep ks = .done (some rest) ∧ c.FacesKinds x rest) :
    Leaves x (loop step a) s (Recognizer.repeated rstep ks) := by
  generalize hresult : Recognizer.repeated rstep ks = result
  refine Gives.loop (n := ks.length)
    (I := fun n _ c => ∃ ls : List TokenKind, ls.length = n ∧
      Recognizer.repeated rstep ls = result ∧ c.FacesKinds x ls)
    ⟨ks, rfl, hresult, h⟩ (kinds_lt_loopBound h) ?_
  rintro n a s ⟨ls, rfl, hls, h⟩
  rw [Recognizer.repeated_eq hshortens] at hls
  refine Gives.mono (Gives.weaken (hstep a h) ?_) ?_
  · refine fun e he => he.imp fun hnone => ?_
    rw [hnone] at hls
    exact hls.symm
  · rintro (_ | _) c ⟨rest, hrest, h⟩
    · rw [hrest] at hls
      exact ⟨rest.length, hshortens ls rest hrest, rest, rfl, hls, h⟩
    · rw [hrest] at hls
      exact ⟨rest, hls.symm, h⟩

end Leaves

variable {g : Grammar} (hx : x.IsTame)

include hx in
/-- In a tame text no annotations are read. -/
theorem kinds_annotations (h : s.cursor.FacesKinds x ks) :
    Gives E g.annotations s fun as c => as = [] ∧ KeepsKinds x ks s.cursor c := by
  refine .loop (I := fun n as c => n = 0 ∧ as = [] ∧ KeepsKinds x ks s.cursor c)
    ⟨rfl, rfl, h, rfl⟩ (Nat.succ_pos _) ?_
  rintro n _ s' ⟨-, rfl, hkinds, hposition⟩
  have hnone : Gives E atAnnotation s' fun b c => b = false ∧ KeepsKinds x ks s'.cursor c := by
    refine .bind (kinds_check hkinds .at rfl) ?_
    rintro found s'' ⟨hiff, hkeeps⟩
    cases found with
    | false => exact .pure ⟨rfl, hkeeps⟩
    | true =>
      obtain ⟨rest, rfl⟩ := hiff.mp rfl
      exact absurd rfl (hkinds.ne_at hx rest)
  refine .bind hnone ?_
  rintro _ s'' ⟨rfl, hkinds', hposition'⟩
  exact .pure ⟨rfl, hkinds', hposition'.trans hposition⟩

/-- A production takes types as they are recognized. -/
def LeavesTypes (x : Tokenized) (p : Parser α) : Prop :=
  ∀ {s : ParserState} {ks : List TokenKind}, s.cursor.FacesKinds x ks →
    Leaves x p s (Recognizer.type ks)

/-! ### Arguments of types -/

/-- The grammar takes the bound of a wildcard that the recognizer passes. -/
theorem leaves_wildcardBound? (hg : LeavesTypes x g.type) (h : s.cursor.FacesKinds x ks) :
    Leaves x g.wildcardBound? s (Recognizer.bound Recognizer.type ks) := by
  refine .bind (kinds_eat h (.keyword .extends) rfl) ?_
  rintro found s' hfound
  cases found with
  | true =>
    obtain ⟨rest, rfl, hrest⟩ := hfound
    exact (hg hrest).followed_pure
  | false =>
    obtain ⟨hextends, hkinds, -⟩ := hfound
    refine .bind (kinds_eat hkinds (.keyword .super) rfl) ?_
    rintro found s' hfound
    cases found with
    | true =>
      obtain ⟨rest, rfl, hrest⟩ := hfound
      exact (hg hrest).followed_pure
    | false =>
      obtain ⟨hsuper, hkinds, -⟩ := hfound
      have hbound : Recognizer.bound Recognizer.type ks = some ks := by
        unfold Recognizer.bound
        split
        · exact absurd rfl (hextends _)
        · exact absurd rfl (hsuper _)
        · rfl
      rw [hbound]
      exact Leaves.pure hkinds

include hx in
/-- The grammar takes an argument that the recognizer passes. -/
theorem leaves_typeArgument (hg : LeavesTypes x g.type) (h : s.cursor.FacesKinds x ks) :
    Leaves x g.typeArgument s
      ((Recognizer.annotations ks).bind (Recognizer.argument Recognizer.type)) := by
  rw [h.annotations_eq hx, Option.bind_some]
  refine .position (.bind (kinds_annotations hx h) ?_)
  rintro _ s' ⟨rfl, hkinds, hposition⟩
  refine .bind (kinds_eat hkinds .question rfl) ?_
  rintro found s'' hfound
  cases found with
  | true =>
    obtain ⟨rest, rfl, hrest⟩ := hfound
    exact (leaves_wildcardBound? hg hrest).followed_node
  | false =>
    obtain ⟨hother, ⟨ws, hfaces, hws⟩, hposition'⟩ := hfound
    have hargument : Recognizer.argument Recognizer.type ks = Recognizer.type ks := by
      unfold Recognizer.argument
      split
      · exact absurd rfl (hother _)
      · rfl
    rw [hargument]
    refine .bind (gives_restore hfaces (hposition'.trans hposition)) ?_
    rintro _ s' hfaces
    exact hg ⟨ws, hfaces, hws⟩

include hx in
/-- Arguments are taken with the commas between them. The closing angle is left. -/
theorem kinds_arguments (hg : LeavesTypes x g.type) (h : s.cursor.FacesKinds x ks) :
    Gives (Fails (Recognizer.repeated (Recognizer.argumentStep Recognizer.type) ks = none))
      (separatedBy .comma g.typeArgument) s fun _ c => ∃ rest, c.FacesKinds x rest ∧
        Recognizer.repeated (Recognizer.argumentStep Recognizer.type) ks =
          Recognizer.closingAngle rest := by
  have hshortens := Recognizer.shortens_argumentStep Recognizer.shrinks_type
  generalize hresult : Recognizer.repeated (Recognizer.argumentStep Recognizer.type) ks = result
  refine .loop (n := ks.length)
    (I := fun n _ c => ∃ ls : List TokenKind, ls.length = n ∧
      Recognizer.repeated (Recognizer.argumentStep Recognizer.type) ls = result ∧
        c.FacesKinds x ls)
    ⟨ks, rfl, hresult, h⟩ (kinds_lt_loopBound h) ?_
  rintro n as s ⟨ls, rfl, hls, h⟩
  rw [Recognizer.repeated_eq hshortens] at hls
  refine Gives.bind (Gives.weaken (leaves_typeArgument hx hg h) ?_) ?_
  · refine fun e he => he.imp fun hnone => ?_
    rw [Recognizer.argumentStep, hnone] at hls
    exact hls.symm
  rintro a s' ⟨rest, hrest, h'⟩
  refine .bind (kinds_eat h' .comma rfl) ?_
  rintro found s'' hfound
  cases found with
  | true =>
    obtain ⟨rest, rfl, hrest'⟩ := hfound
    have hstep := Recognizer.argumentStep_eq_again Recognizer.type hrest
    rw [hstep] at hls
    exact .pure ⟨rest.length, hshortens ls rest hstep, rest, rfl, hls, hrest'⟩
  | false =>
    obtain ⟨hother, hkinds, -⟩ := hfound
    rw [Recognizer.argumentStep_eq_done Recognizer.type hrest hother] at hls
    exact .pure ⟨rest, hkinds, hls.symm⟩

include hx in
/-- The grammar takes a closing angle that the recognizer passes, by taking a token apart if need
be. -/
theorem leaves_expectClosingAngle (h : s.cursor.FacesKinds x ks) :
    Leaves x expectClosingAngle s (Recognizer.closingAngle ks) := by
  refine kinds_closing hx h ?_ ?_
  · intro t s rest hrest h
    exact .pure ⟨rest, hrest, h⟩
  · intro s hnone h
    exact gives_unexpected h fun e => .inr (.inr hnone)

include hx in
/-- The arguments of a type are taken with their angles. -/
theorem leaves_typeArguments (hg : LeavesTypes x g.type) (h : s.cursor.FacesKinds x (.less :: ks)) :
    Leaves x g.typeArguments s (Recognizer.arguments Recognizer.type ks) := by
  unfold Grammar.typeArguments
  refine Gives.bind (kinds_expect h rfl) ?_
  rintro _ s' h
  refine kinds_closing hx h ?_ ?_
  · intro t s rest hrest h
    rw [Recognizer.eq_of_closingAngle hrest]
    exact .pure ⟨rest, rfl, h⟩
  · intro s hnone h
    rw [Recognizer.arguments_of_closingAngle _ hnone]
    refine Gives.bind (kinds_arguments hx hg h) ?_
    rintro as s' ⟨rest, h, hrest⟩
    rw [hrest]
    exact (leaves_expectClosingAngle hx h).followed_pure

include hx in
/-- The grammar takes the arguments that the recognizer passes. -/
theorem leaves_typeArguments? (hg : LeavesTypes x g.type) (h : s.cursor.FacesKinds x ks) :
    Leaves x g.typeArguments? s (Recognizer.optionalArguments Recognizer.type ks) := by
  refine Gives.bind (kinds_check h .less rfl) ?_
  rintro found s' ⟨hiff, h, -⟩
  cases found with
  | true =>
    obtain ⟨ks, rfl⟩ := hiff.mp rfl
    exact (leaves_typeArguments hx hg h).followed_pure
  | false =>
    have hoptional : Recognizer.optionalArguments Recognizer.type ks = some ks := by
      unfold Recognizer.optionalArguments
      split
      · exact absurd (hiff.mpr ⟨_, rfl⟩) Bool.false_ne_true
      · rfl
    rw [hoptional]
    exact Leaves.pure h

/-! ### Class types -/

include hx in
/-- The grammar takes a segment that the recognizer passes. -/
theorem leaves_segment (hg : LeavesTypes x g.type) (annotations : List (Node .annotationUse))
    (h : s.cursor.FacesKinds x ks) :
    Leaves x (g.segment annotations) s (Recognizer.segment Recognizer.type ks) := by
  unfold Grammar.segment
  refine Gives.bind (kinds_expectIdentifier h fun hother e => .inr (.inr ?_)) ?_
  · exact Recognizer.segment_eq_none _ hother
  rintro name s' ⟨rest, rfl, hrest⟩
  rw [Recognizer.segment]
  exact (leaves_typeArguments? hx hg hrest).followed_pure

/-- The grammar finds another segment where the recognizer does. -/
theorem kinds_atSegment (h : s.cursor.FacesKinds x ks) :
    Gives E Grammar.atSegment s fun b c =>
      b = Recognizer.atSegment ks ∧ c.FacesKinds x ks := by
  refine .bind (kinds_check h .dot rfl) ?_
  rintro found s' ⟨hiff, h, -⟩
  cases found with
  | false =>
    refine .pure ⟨?_, h⟩
    unfold Recognizer.atSegment
    split
    · exact hiff.mpr ⟨_, rfl⟩
    · exact hiff.mpr ⟨_, rfl⟩
    · rfl
  | true =>
    obtain ⟨ks, rfl⟩ := hiff.mp rfl
    refine .bind (kinds_peekKind h nofun) ?_
    rintro k s' ⟨hshows, h, -⟩
    refine .pure ⟨?_, h⟩
    rw [hshows.beq_eq rfl, hshows.beq_eq rfl]
    cases ks with
    | nil => rfl
    | cons k ks => cases k <;> rfl

include hx in
/-- A class type is taken unless its last name is restricted. -/
theorem leaves_classTypeFrom (hg : LeavesTypes x g.type) (start : Nat)
    (annotations : List (Node .annotationUse)) (h : s.cursor.FacesKinds x ks) :
    Leaves x (g.classTypeFrom start annotations) s (Recognizer.classType Recognizer.type ks) := by
  obtain ⟨ws, hfaces, hws⟩ := h
  refine Gives.bind (gives_peek hfaces 0) ?_
  rintro first s' ⟨-, hfaces, -⟩
  refine Leaves.seq (leaves_segment hx hg annotations ⟨ws, hfaces, hws⟩) ?_ ?_
  · intro hnone
    rw [Recognizer.classType, hnone, Option.bind_none]
  rintro segment s' rest hrest h
  rw [Recognizer.classType, hrest, Option.bind_some]
  refine Leaves.seq
    (Leaves.loop (Recognizer.shortens_segmentStep Recognizer.shrinks_type) h ?_) id ?_
  · rintro ⟨last, segments⟩ s ks h
    refine .bind (kinds_atSegment h) ?_
    rintro found s' ⟨hfound, h⟩
    rw [Recognizer.segmentStep, ← hfound]
    cases found with
    | false => exact .pure ⟨ks, rfl, h⟩
    | true =>
      obtain ⟨ks, rfl⟩ := Recognizer.exists_eq_dot hfound.symm
      refine .bind (kinds_advance h (by decide)) ?_
      rintro dot s' h
      rw [List.tail_cons, h.annotations_eq hx, Option.bind_some]
      refine .bind (kinds_annotations hx h) ?_
      rintro as s' ⟨-, ⟨ws, hfaces, hws⟩, -⟩
      refine .bind (gives_peek hfaces 0) ?_
      rintro token s' ⟨-, hfaces, -⟩
      refine .bind (.weaken (leaves_segment hx hg as ⟨ws, hfaces, hws⟩) ?_) ?_
      · refine fun e he => he.imp fun hnone => ?_
        rw [hnone]
        rfl
      rintro segment s' ⟨rest, hrest, h⟩
      refine .pure ⟨rest, ?_, h⟩
      rw [hrest]
      rfl
  · rintro ⟨last, segments⟩ s' rest hrest h
    dsimp only
    split
    · exact .of_error rfl (.inr (.inl rfl))
    · exact .of_eq (node_apply _ _ _) ⟨rest, hrest, h⟩

/-! ### Types without their dimensions -/

/-- The words for primitive types are those that make one. -/
theorem isSome_ofKeyword? (keyword : Keyword) :
    (PrimitiveType.ofKeyword? keyword).isSome = keyword.isPrimitiveType := by
  cases keyword <;> rfl

/-- The grammar finds a primitive type exactly where the word for one is the first kind ahead. -/
theorem kinds_primitive? (h : s.cursor.FacesKinds x ks) :
    Gives E Grammar.primitive? s fun found c => c.FacesKinds x ks ∧
      match found with
      | some _ => ∃ keyword rest, ks = .keyword keyword :: rest ∧ keyword.isPrimitiveType = true
      | none => ∀ keyword rest, ks = .keyword keyword :: rest →
          keyword.isPrimitiveType = false := by
  obtain ⟨ws, hfaces, hws⟩ := h
  refine .bind (gives_peekKind hfaces 0) ?_
  rintro _ s' ⟨rfl, hfaces, -⟩
  have hshows : Shows (wordAt ws 0).kind ks := hws ▸ shows_wordAt ws
  split
  · rename_i keyword hkeyword
    rw [hkeyword] at hshows
    obtain ⟨rest, rfl⟩ := hshows.exists_eq_cons rfl
    refine .pure ⟨⟨ws, hfaces, hws⟩, ?_⟩
    have hsome := isSome_ofKeyword? keyword
    cases hprimitive : PrimitiveType.ofKeyword? keyword with
    | some primitive =>
      rw [hprimitive] at hsome
      exact ⟨keyword, rest, rfl, hsome.symm⟩
    | none =>
      rw [hprimitive] at hsome
      rintro _ _ hks
      cases hks
      exact hsome.symm
  · rename_i hother
    refine .pure ⟨⟨ws, hfaces, hws⟩, ?_⟩
    rintro keyword rest rfl
    exact (hother keyword (hshows.eq_of_cons (by simp))).elim

/-- Where `var` stands for a type, neither a dot nor a `<` comes behind it. -/
theorem kinds_atVar (h : s.cursor.FacesKinds x ks) :
    Gives E Grammar.atVar s fun b c => c.FacesKinds x ks ∧
      (b = true → ∃ rest, ks = .identifier :: rest ∧ (∀ ls, rest ≠ .dot :: ls) ∧
        ∀ ls, rest ≠ .less :: ls) := by
  obtain ⟨ws, hfaces, hws⟩ := h
  have hshows : Shows (wordAt ws 0).kind ks := hws ▸ shows_wordAt ws
  refine .bind (Q := fun b c => c.FacesKinds x ks ∧ (b = true → ∃ rest, ks = .identifier :: rest))
    ?_ ?_
  · refine .bind (gives_peek hfaces 0) ?_
    rintro t s' ⟨hword, hfaces, -⟩
    refine .pure ⟨⟨ws, hfaces, hws⟩, fun his => ?_⟩
    rw [Token.isWord, Bool.and_eq_true, beq_iff_eq, show t.kind = _ from congrArg Word.kind hword]
      at his
    rw [his.1] at hshows
    exact hshows.exists_eq_cons rfl
  rintro found s' ⟨h, hidentifier⟩
  cases found with
  | false => exact .pure ⟨h, nofun⟩
  | true =>
    obtain ⟨rest, rfl⟩ := hidentifier rfl
    refine .bind (kinds_peekKind h nofun) ?_
    rintro k s'' ⟨hshows, h, -⟩
    refine .pure ⟨h, fun hnot => ⟨rest, rfl, ?_, ?_⟩⟩
    · rintro ls rfl
      rw [hshows.eq_of_cons nofun] at hnot
      cases hnot
    · rintro ls rfl
      rw [hshows.eq_of_cons nofun] at hnot
      cases hnot

include hx in
/-- The grammar takes a type without dimensions that the recognizer passes. -/
theorem leaves_elementType (hg : LeavesTypes x g.type) (h : s.cursor.FacesKinds x ks) :
    Leaves x (g.elementType true) s (Recognizer.element Recognizer.type ks) := by
  refine Gives.position (.bind (kinds_annotations hx h) ?_)
  rintro _ s' ⟨rfl, h, -⟩
  refine .bind (kinds_primitive? h) ?_
  rintro (_ | primitive) s' ⟨h, hkeyword⟩
  · rw [Recognizer.element_eq_classType _ hkeyword]
    change Leaves x (Grammar.atVar >>= _) s' _
    refine Gives.bind (kinds_atVar h) ?_
    rintro found s' ⟨h, hvar⟩
    cases found with
    | false => exact leaves_classTypeFrom hx hg _ _ h
    | true =>
      obtain ⟨rest, rfl, hdot, hless⟩ := hvar rfl
      rw [Recognizer.classType_of_name _ hdot hless]
      refine .bind (kinds_advance h nofun) ?_
      rintro token s' h
      exact .of_eq (node_apply _ _ _) ⟨rest, rfl, h⟩
  · obtain ⟨keyword, rest, rfl, hprimitive⟩ := hkeyword
    rw [Recognizer.element, if_pos hprimitive]
    refine .bind (kinds_advance h nofun) ?_
    rintro token s' h
    exact .of_eq (node_apply _ _ _) ⟨rest, rfl, h⟩

/-! ### Types -/

include hx in
/-- A dimension is taken if one comes next. -/
theorem kinds_dimension? (h : s.cursor.FacesKinds x ks) :
    Gives E g.dimension? s fun found c =>
      match found with
      | some _ => ∃ rest, ks = .leftBracket :: .rightBracket :: rest ∧ c.FacesKinds x rest
      | none => (∀ rest, ks ≠ .leftBracket :: .rightBracket :: rest) ∧ c.FacesKinds x ks := by
  refine .bind (Q := fun b c => c.FacesKinds x ks ∧
    (b = false → ∀ rest, ks ≠ .leftBracket :: .rightBracket :: rest)) ?_ ?_
  · obtain ⟨ws, hfaces, hws⟩ := h
    refine .bind (gives_peekKind hfaces 0) ?_
    rintro _ s' ⟨rfl, hfaces, -⟩
    have hshows : Shows (wordAt ws 0).kind ks := hws ▸ shows_wordAt ws
    refine .pure ⟨⟨ws, hfaces, hws⟩, ?_⟩
    rintro hnone rest rfl
    rw [hshows.eq_of_cons nofun] at hnone
    cases hnone
  clear h
  rintro found s' ⟨h, hnone⟩
  cases found with
  | false => exact .pure ⟨hnone rfl, h⟩
  | true =>
    refine .position (.bind (kinds_annotations hx h) ?_)
    rintro as s'' ⟨-, h', hposition⟩
    refine .bind (kinds_checkPair h' .leftBracket .rightBracket rfl rfl) ?_
    rintro pair s'' ⟨hiff, ⟨ws, hfaces, hws⟩, hposition'⟩
    cases pair with
    | false =>
      refine .bind (gives_restore hfaces (hposition'.trans hposition)) ?_
      rintro _ s'' hfaces
      refine .pure ⟨fun rest hks => ?_, ws, hfaces, hws⟩
      exact Bool.false_ne_true (hiff.mpr ⟨rest, hks⟩)
    | true =>
      obtain ⟨rest, rfl⟩ := hiff.mp rfl
      refine .bind (kinds_advance ⟨ws, hfaces, hws⟩ nofun) ?_
      rintro opening s'' hclosing
      refine .bind (kinds_advance hclosing nofun) ?_
      rintro closing s'' hrest
      exact .pure ⟨rest, rfl, hrest⟩

include hx in
/-- The grammar takes the dimensions that the recognizer passes. -/
theorem kinds_dimensions (h : s.cursor.FacesKinds x ks) :
    Gives E (many g.dimension?) s fun _ c => c.FacesKinds x (Recognizer.dimensions ks) := by
  refine .loop (n := ks.length)
    (I := fun n _ c => ∃ ls : List TokenKind, ls.length = n ∧
      Recognizer.dimensions ls = Recognizer.dimensions ks ∧ c.FacesKinds x ls)
    ⟨ks, rfl, rfl, h⟩ (kinds_lt_loopBound h) ?_
  rintro n _ s ⟨ls, rfl, hsame, h⟩
  refine .bind (kinds_dimension? hx h) ?_
  rintro (_ | dimension) s' hfound
  · obtain ⟨hother, h⟩ := hfound
    refine .pure ?_
    rw [← hsame, Recognizer.dimensions]
    · exact h
    · exact hother
  · obtain ⟨rest, rfl, hrest⟩ := hfound
    exact .pure ⟨rest.length, by simp only [List.length_cons]; omega, rest, rfl, hsame, hrest⟩

include hx in
/-- A level of the grammar takes types as they are recognized if the one inside it does. -/
theorem leavesTypes_typeBody (hg : LeavesTypes x g.type) : LeavesTypes x g.typeBody := by
  intro s ks h
  rw [Recognizer.type_eq, h.annotations_eq hx, Option.bind_some]
  refine Gives.position ?_
  refine Leaves.seq (leaves_elementType hx hg h) ?_ ?_
  · intro hnone
    rw [hnone]
    rfl
  rintro element s' rest hrest h
  rw [hrest, Option.map_some]
  refine Gives.bind (kinds_dimensions hx h) ?_
  rintro dimensions s' h
  split
  · exact Leaves.pure h
  · exact .of_eq (node_apply _ _ _) ⟨_, rfl, h⟩

include hx in
/-- Types are taken as they are recognized, unless they are nested too deep. -/
theorem leavesTypes_levels (n : Nat) : LeavesTypes x (Grammar.levels n).type := by
  induction n with
  | zero =>
    rintro s ks ⟨ws, hfaces, -⟩
    refine Gives.bind (gives_peek hfaces 0) ?_
    rintro t s' -
    exact .of_error rfl (.inl rfl)
  | succ n ih =>
    rintro s ks ⟨ws, hfaces, hws⟩
    refine gives_guarded "type" (fun _ _ => .inl rfl) hfaces ?_
    intro s hfaces
    exact leavesTypes_typeBody hx ih ⟨ws, hfaces, hws⟩

end Parser

end JavaSyntax
