import JavaSyntax.Proofs.Token.Words

/-!
# Words with every closing angle for itself

Where lists of type arguments end together, their closing angles make up one token or a few,
and it depends on the number of angles which tokens these are. A parse of types takes them
one by one all the same. So what it has ahead is best told with each angle as a word of its
own.
-/

namespace JavaSyntax

/-- A `>` that closes a list of type arguments. -/
def Word.angle : Word := ⟨.greater, ">", none⟩

/-- The words that a word stands for when each closing angle is a word of its own. -/
def Word.singles (w : Word) : List Word :=
  match w.kind with
  | .shiftRight => [.angle, .angle]
  | .unsignedShiftRight => [.angle, .angle, .angle]
  | _ => [w]

/-- Whether a kind is made of closing angles alone. -/
def TokenKind.isAngle : TokenKind → Bool
  | .greater | .shiftRight | .unsignedShiftRight => true
  | _ => false

namespace Word

variable {w v : Word}

/-- A word that is not made of closing angles stands for itself. -/
theorem singles_of_isAngle (h : w.kind.isAngle = false) : w.singles = [w] := by
  unfold singles
  split
  · rename_i hkind
    rw [hkind] at h
    cases h
  · rename_i hkind
    rw [hkind] at h
    cases h
  · rfl

/-- A word starts with an angle, or it is its own and only single word. -/
theorem singles_cases (w : Word) :
    w.singles = [w] ∨ w.kind.isAngle = true ∧ w.singles.head? = some .angle := by
  unfold singles
  split
  · rename_i hkind
    rw [hkind]
    exact .inr ⟨rfl, rfl⟩
  · rename_i hkind
    rw [hkind]
    exact .inr ⟨rfl, rfl⟩
  · exact .inl rfl

/-- Every word stands for one word at least. -/
theorem singles_ne_nil (w : Word) : w.singles ≠ [] := by
  unfold singles
  split <;> exact nofun

/-- Before a word that is no angle stands the word itself. -/
theorem singles_of_head? (h : w.singles.head? = some v) (hv : v.kind ≠ .greater) :
    w.singles = [w] ∧ w = v := by
  rcases w.singles_cases with hself | ⟨-, hangle⟩
  · rw [hself] at h
    exact ⟨hself, Option.some.inj h⟩
  · rw [hangle] at h
    rw [← Option.some.inj h] at hv
    exact absurd rfl hv

/-- Whether a word is of a kind that has no angles can be asked about its first single word. -/
theorem kind_beq_of_head? (h : w.singles.head? = some v) {kind : TokenKind}
    (hkind : kind.isAngle = false) : (w.kind == kind) = (v.kind == kind) := by
  rcases w.singles_cases with hself | ⟨hw, hangle⟩
  · rw [hself] at h
    rw [Option.some.inj h]
  · rw [hangle] at h
    have hne (k : TokenKind) (hk : k.isAngle = true) : (k == kind) = false := by
      apply beq_false_of_ne
      rintro rfl
      rw [hkind] at hk
      cases hk
    rw [← Option.some.inj h, hne _ hw, hne _ rfl]

end Word

namespace Cursor

variable {x : Tokenized} {c : Cursor} {us ws : List Word} {w : Word}

/-- A cursor on a text that has these words ahead if each closing angle counts for itself. -/
def FacesSingly (x : Tokenized) (us : List Word) (c : Cursor) : Prop :=
  ∃ ws, c.Faces x ws ∧ ws.flatMap Word.singles = us

/-- Such a cursor is on the text. -/
theorem FacesSingly.on (h : c.FacesSingly x us) : c.On x := by
  obtain ⟨ws, h, -⟩ := h
  exact h.on

/-- Before an angle, words are the same whether angles count for themselves or not. -/
theorem head?_singles_wordAt (ws : List Word) {n : Nat}
    (h : ∀ i < n, (wordAt (ws.flatMap Word.singles) i).kind ≠ .greater) :
    (wordAt ws n).singles.head? = some (wordAt (ws.flatMap Word.singles) n) := by
  induction ws generalizing n with
  | nil => rfl
  | cons w ws ih =>
    have hhead : w.singles.head? = some (wordAt ((w :: ws).flatMap Word.singles) 0) := by
      rw [List.flatMap_cons]
      cases hw : w.singles with
      | nil => exact absurd hw w.singles_ne_nil
      | cons v vs => rfl
    cases n with
    | zero => exact hhead
    | succ n =>
      obtain ⟨hself, -⟩ := Word.singles_of_head? hhead (h 0 (Nat.succ_pos n))
      rw [List.flatMap_cons, hself, List.singleton_append] at h ⊢
      rw [wordAt_cons_succ, wordAt_cons_succ]
      refine ih ?_
      intro i hi
      exact h (i + 1) (Nat.succ_lt_succ hi)

/-- The first single word belongs to the first word ahead. -/
theorem exists_of_flatMap_singles {ws : List Word} (h : ws.flatMap Word.singles = w :: us) :
    ∃ v vs rest, ws = v :: vs ∧ v.singles = w :: rest ∧ us = rest ++ vs.flatMap Word.singles := by
  cases ws with
  | nil => cases h
  | cons v vs =>
    rw [List.flatMap_cons] at h
    cases hv : v.singles with
    | nil => exact absurd hv v.singles_ne_nil
    | cons w' rest =>
      rw [hv] at h
      obtain ⟨rfl, hus⟩ := List.cons.inj h
      exact ⟨v, vs, rest, rfl, hv, hus.symm⟩

/-- Before a word that is no angle, the words ahead are what they are. -/
theorem FacesSingly.exists_faces (h : c.FacesSingly x (w :: us)) (hw : w.kind ≠ .greater) :
    ∃ ws, c.Faces x (w :: ws) ∧ ws.flatMap Word.singles = us := by
  obtain ⟨ws, h, hsingles⟩ := h
  obtain ⟨v, vs, rest, rfl, hv, rfl⟩ := exists_of_flatMap_singles hsingles
  obtain ⟨hself, rfl⟩ := Word.singles_of_head? (by rw [hv]; rfl) hw
  rw [hself] at hv
  obtain ⟨-, rfl⟩ := List.cons.inj hv
  exact ⟨vs, h, rfl⟩

/-- Whether the next word is of a kind that has no angles is the same either way. -/
theorem kind_beq_wordAt (ws : List Word) {kind : TokenKind} (hkind : kind.isAngle = false) :
    ((wordAt ws 0).kind == kind) = ((wordAt (ws.flatMap Word.singles) 0).kind == kind) :=
  Word.kind_beq_of_head? (head?_singles_wordAt ws fun i hi => absurd hi i.not_lt_zero) hkind

/-- Taking an angle passes it, whatever word it belongs to. -/
theorem FacesSingly.closing? (h : c.FacesSingly x (w :: us)) (hw : w.kind = .greater) :
    ∃ t c', Cursor.closing? c = (.ok (some t), c') ∧ c'.FacesSingly x us := by
  obtain ⟨ws, h, hsingles⟩ := h
  obtain ⟨v, vs, rest, rfl, hv, rfl⟩ := exists_of_flatMap_singles hsingles
  have htext {text : String} (hsymbol : v.kind.symbol? = some text) : v.text = text := by
    obtain ⟨t, rfl, -, -, hspelt⟩ := h.exists_token List.mem_cons_self
    exact hspelt text hsymbol
  unfold Word.singles at hv
  split at hv
  · rename_i hkind
    obtain ⟨-, rfl⟩ := List.cons.inj hv
    obtain ⟨t, c', hclosing, hfaces⟩ := h.closing?_split .greater (by rw [hkind]; rfl)
    refine ⟨t, c', hclosing, _, hfaces, ?_⟩
    have hafter : v.afterGreater .greater = .angle := by
      rw [Word.afterGreater, htext (by rw [hkind]; rfl)]
      rfl
    rw [List.flatMap_cons, hafter]
    rfl
  · rename_i hkind
    obtain ⟨-, rfl⟩ := List.cons.inj hv
    obtain ⟨t, c', hclosing, hfaces⟩ := h.closing?_split .shiftRight (by rw [hkind]; rfl)
    exact ⟨t, c', hclosing, _, hfaces, rfl⟩
  · obtain ⟨rfl, rfl⟩ := List.cons.inj hv
    obtain ⟨t, c', hclosing, hfaces⟩ := h.closing?_greater hw
    exact ⟨t, c', hclosing, vs, hfaces, rfl⟩

/-- Where no angle comes next, none is taken. -/
theorem FacesSingly.closing?_none (h : c.FacesSingly x us)
    (hgreater : (wordAt us 0).kind ≠ .greater)
    (hnone : (wordAt us 0).kind.afterGreater? = none) :
    ∃ c', Cursor.closing? c = (.ok none, c') ∧ c'.FacesSingly x us ∧
      c'.position = c.position := by
  obtain ⟨ws, h, rfl⟩ := h
  have hhead := head?_singles_wordAt ws (n := 0) nofun
  obtain ⟨-, hsame⟩ := Word.singles_of_head? hhead hgreater
  rw [← hsame] at hgreater hnone
  obtain ⟨c', hclosing, hfaces, hposition⟩ := h.closing?_none hgreater hnone
  exact ⟨c', hclosing, ⟨ws, hfaces, rfl⟩, hposition⟩

/-! ### How many words there are -/

/-- Each single word takes up some of the text. -/
theorem Faces.length_singles_le (h : c.Faces x ws) (hw : w ∈ ws) :
    w.singles.length ≤ w.text.utf8ByteSize := by
  obtain ⟨t, rfl, -, hsource, hspelt⟩ := h.exists_token hw
  unfold Word.singles
  split
  · rename_i hkind
    rw [show t.word.text = ">>" from hspelt ">>" (by rw [show t.kind = _ from hkind]; rfl)]
    decide
  · rename_i hkind
    rw [show t.word.text = ">>>" from hspelt ">>>" (by rw [show t.kind = _ from hkind]; rfl)]
    decide
  · have hpos : t.source.utf8ByteSize ≠ 0 := by simpa using hsource
    exact Nat.pos_of_ne_zero hpos

/-- There are no more words ahead than the text has bytes. -/
theorem FacesSingly.length_le (h : c.FacesSingly x us) : us.length ≤ x.text.utf8ByteSize := by
  obtain ⟨ws, h, rfl⟩ := h
  refine Nat.le_trans ?_ h.sum_le
  have hle : ∀ w ∈ ws, w.singles.length ≤ w.text.utf8ByteSize := fun w => h.length_singles_le
  clear h
  induction ws with
  | nil => exact Nat.zero_le _
  | cons w ws ih =>
    have hw := hle w List.mem_cons_self
    have hws := ih fun v hv => hle v (List.mem_cons_of_mem _ hv)
    simp only [List.flatMap_cons, List.length_append, List.map_cons, List.sum_cons]
    omega

/-- There are no more words than bytes in the text. -/
theorem Faces.length_le (h : c.Faces x ws) : ws.length ≤ x.text.utf8ByteSize := by
  have hsingles := FacesSingly.length_le ⟨ws, h, rfl⟩
  exact Nat.le_trans (length_le_length_flatMap fun w _ => w.singles_ne_nil) hsingles

end Cursor

end JavaSyntax
