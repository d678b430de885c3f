import JavaSyntax.Proofs.Lexer.FloatValues
import JavaSyntax.Proofs.Lexer.TextBlocks

/-!
# Slices with bounds

The decoders of literals take texts and lists apart at offsets that they compute. Here every such
step is one that can break off: a slice of a text whose ends are out of order, beyond the text or
inside a character, an index beyond a list, and a difference below zero.
-/

namespace JavaSyntax

/-! ### Steps that can break off -/

namespace Bounded

/-- The difference of two lengths. -/
def minus? (a b : Nat) : Option Nat := if b ≤ a then some (a - b) else none

/-- What stands before an offset, if a character starts or the text ends there. -/
def takeBytes? : Nat → List Char → Option (List Char)
  | 0, _ => some []
  | _ + 1, [] => none
  | n + 1, c :: cs =>
    if c.utf8Size ≤ n + 1 then (takeBytes? (n + 1 - c.utf8Size) cs).map (c :: ·) else none

/-- What stands between two offsets of a text. -/
def slice? (start stop : Nat) (cs : List Char) : Option (List Char) :=
  if start ≤ stop then (takeBytes? stop cs).bind (dropBytes? start) else none

/-- A byte of a text. -/
def byteAt? (i : Nat) (cs : List Char) : Option UInt8 := (cs.flatMap String.utf8EncodeChar)[i]?

/-- The items before an index. -/
def front? {α : Type} (i : Nat) (xs : List α) : Option (List α) :=
  if i ≤ xs.length then some (xs.take i) else none

/-- The items from an index on. -/
def back? {α : Type} (i : Nat) (xs : List α) : Option (List α) :=
  if i ≤ xs.length then some (xs.drop i) else none

/-- A list with another item at an index. -/
def replace? {α : Type} (i : Nat) (x : α) (xs : List α) : Option (List α) :=
  if i < xs.length then some (xs.set i x) else none

/-! ### Where texts are cut -/

section Cuts

variable {n count : Nat} {cs front back body rest : List Char}

/-- A text can be cut off at an offset if a part of it has that many bytes. -/
theorem dropBytes?_eq_some_iff :
    dropBytes? n cs = some rest ↔ ∃ front, cs = front ++ rest ∧ byteLength front = n := by
  constructor
  · intro h
    fun_induction dropBytes? n cs with
    | case1 cs =>
      cases h
      exact ⟨[], rfl, rfl⟩
    | case2 => cases h
    | case3 n c cs hc ih =>
      obtain ⟨front, rfl, hfront⟩ := ih h
      exact ⟨c :: front, rfl, by rw [byteLength_cons]; omega⟩
    | case4 => cases h
  · rintro ⟨front, rfl, rfl⟩
    exact dropBytes?_append front rest

/-- What stands before an offset can be taken. -/
theorem takeBytes?_append (front rest : List Char) :
    takeBytes? (byteLength front) (front ++ rest) = some front := by
  induction front with
  | nil => rw [byteLength_nil, takeBytes?]
  | cons c front ih =>
    obtain ⟨n, hn⟩ : ∃ n, c.utf8Size + byteLength front = n + 1 :=
      Nat.exists_eq_add_one.mpr (Nat.add_pos_left c.utf8Size_pos _)
    rw [byteLength_cons, List.cons_append, hn, takeBytes?, if_pos (by omega), ← hn,
      Nat.add_sub_cancel_left, ih]
    rfl

/-- A text can be taken up to an offset if a part of it has that many bytes. -/
theorem takeBytes?_eq_some_iff :
    takeBytes? n cs = some front ↔ ∃ rest, cs = front ++ rest ∧ byteLength front = n := by
  constructor
  · intro h
    fun_induction takeBytes? n cs generalizing front with
    | case1 cs =>
      cases h
      exact ⟨cs, rfl, rfl⟩
    | case2 => cases h
    | case3 n c cs hc ih =>
      obtain ⟨front, hfront, rfl⟩ := Option.map_eq_some_iff.mp h
      obtain ⟨rest, rfl, hlength⟩ := ih hfront
      exact ⟨rest, rfl, by rw [byteLength_cons]; omega⟩
    | case4 => cases h
  · rintro ⟨rest, rfl, rfl⟩
    exact takeBytes?_append front rest

/-- An end of a text can be cut off if it has that many bytes. -/
theorem dropLastBytes?_eq_some_iff :
    dropLastBytes? n cs = some body ↔ ∃ back, cs = body ++ back ∧ byteLength back = n := by
  rw [dropLastBytes?, Option.map_eq_some_iff]
  constructor
  · rintro ⟨rest, h, rfl⟩
    obtain ⟨front, hsplit, hfront⟩ := dropBytes?_eq_some_iff.mp h
    refine ⟨front.reverse, ?_, by rw [byteLength_reverse, hfront]⟩
    rw [← List.reverse_reverse cs, hsplit, List.reverse_append]
  · rintro ⟨back, rfl, hback⟩
    refine ⟨body.reverse, dropBytes?_eq_some_iff.mpr ⟨back.reverse, ?_, ?_⟩, List.reverse_reverse _⟩
    · rw [List.reverse_append]
    · rw [byteLength_reverse, hback]

/-- Counting from the end of a text is counting from its start up to the difference. -/
theorem takeBytes?_minus (n : Nat) (cs : List Char) :
    ((minus? (byteLength cs) n).bind fun stop => takeBytes? stop cs) = dropLastBytes? n cs := by
  ext body
  rw [Option.bind_eq_some_iff, dropLastBytes?_eq_some_iff]
  constructor
  · rintro ⟨stop, hstop, htake⟩
    obtain ⟨back, rfl, hbody⟩ := takeBytes?_eq_some_iff.mp htake
    refine ⟨back, rfl, ?_⟩
    rw [minus?, byteLength_append] at hstop
    split at hstop
    · have hdifference := Option.some.inj hstop
      omega
    · cases hstop
  · rintro ⟨back, rfl, hback⟩
    have hlength := byteLength_append body back
    refine ⟨byteLength body, ?_, takeBytes?_append body back⟩
    rw [minus?, if_pos (by omega)]
    congr 1
    omega

/-- A text without delimiters of one length is a slice of it. -/
theorem slice?_minus (n : Nat) (cs : List Char) :
    ((minus? (byteLength cs) n).bind fun stop => slice? n stop cs) =
      (dropBytes? n cs).bind (dropLastBytes? n) := by
  ext body
  simp only [Option.bind_eq_some_iff]
  constructor
  · rintro ⟨stop, hstop, hslice⟩
    rw [slice?] at hslice
    split at hslice
    · obtain ⟨front, htake, hdrop⟩ := Option.bind_eq_some_iff.mp hslice
      obtain ⟨opening, rfl, hopening⟩ := dropBytes?_eq_some_iff.mp hdrop
      have hlast : dropLastBytes? n cs = some (opening ++ body) := by
        rw [← takeBytes?_minus, hstop]
        exact htake
      obtain ⟨back, rfl, hback⟩ := dropLastBytes?_eq_some_iff.mp hlast
      exact ⟨body ++ back, dropBytes?_eq_some_iff.mpr ⟨opening, List.append_assoc .., hopening⟩,
        dropLastBytes?_eq_some_iff.mpr ⟨back, rfl, hback⟩⟩
    · cases hslice
  · rintro ⟨rest, hdrop, hlast⟩
    obtain ⟨opening, rfl, hopening⟩ := dropBytes?_eq_some_iff.mp hdrop
    obtain ⟨back, rfl, hback⟩ := dropLastBytes?_eq_some_iff.mp hlast
    have hlength := byteLength_append opening (body ++ back)
    rw [byteLength_append body back] at hlength
    refine ⟨n + byteLength body, ?_, ?_⟩
    · rw [minus?, if_pos (by omega)]
      congr 1
      omega
    · have htake : takeBytes? (n + byteLength body) (opening ++ (body ++ back)) =
          some (opening ++ body) :=
        takeBytes?_eq_some_iff.mpr ⟨back, (List.append_assoc ..).symm, by
          rw [byteLength_append, hopening]⟩
      rw [slice?, if_pos (Nat.le_add_right n _), htake]
      exact dropBytes?_eq_some_iff.mpr ⟨opening, rfl, hopening⟩

/-- The first byte of a character tells whether it is a given character of ASCII. -/
theorem head?_utf8EncodeChar (c d : Char) (hd : d.toNat < 128) :
    (String.utf8EncodeChar c).head? = some (UInt8.ofNat d.toNat) ↔ c = d := by
  have hbyte (n : Nat) : UInt8.ofNat n = UInt8.ofNat d.toNat ↔ n % 256 = d.toNat := by
    rw [← UInt8.toNat_inj, UInt8.toNat_ofNat', UInt8.toNat_ofNat']
    omega
  have hchar : c.val.toNat = d.toNat ↔ c = d := Char.toNat_inj
  unfold String.utf8EncodeChar
  dsimp only
  split
  · rw [List.head?_cons, Option.some_inj, hbyte, ← hchar]
    omega
  -- every other first byte is too large
  · have hne : c ≠ d := fun h => by
      rw [← hchar] at h
      omega
    refine iff_of_false ?_ hne
    split
    · rw [List.head?_cons, Option.some_inj, hbyte]
      omega
    · split
      · rw [List.head?_cons, Option.some_inj, hbyte]
        omega
      · rw [List.head?_cons, Option.some_inj, hbyte]
        omega

/-- Every character has a first byte. -/
theorem isSome_head?_utf8EncodeChar (c : Char) : (String.utf8EncodeChar c).head?.isSome = true := by
  rw [List.isSome_head?]
  exact List.ne_nil_of_length_pos (by rw [String.length_utf8EncodeChar]; exact c.utf8Size_pos)

/-- Behind a character of one byte there is the first byte of the next one. -/
theorem byteAt?_one_eq (c : Char) (cs : List Char) :
    byteAt? 1 ('0' :: c :: cs) = (String.utf8EncodeChar c).head? := by
  obtain ⟨b, hb⟩ := Option.isSome_iff_exists.mp (isSome_head?_utf8EncodeChar c)
  have hindex : byteAt? 1 ('0' :: c :: cs) = (String.utf8EncodeChar c ++
      cs.flatMap String.utf8EncodeChar).head? := by
    rw [List.head?_eq_getElem?]
    rfl
  rw [hindex, List.head?_append, hb]
  rfl

end Cuts

end Bounded

end JavaSyntax
