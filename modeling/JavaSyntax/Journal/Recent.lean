/-!
# The most recent items

A history of bounded length. Whoever adds to a full one loses the oldest item, so it
always holds the last of all items that were added. There are two ways to make room:
to count how many items are too many and drop as many, or to drop the oldest one.
They come to the same, as long as there is room for any item at all.
-/

namespace JavaSyntax

variable {α : Type}

/-- Adds an item after others, oldest first. If there are as many already as there is
room for, those are dropped first that would be too many. -/
def pushDroppingExcess (capacity : Nat) (items : List α) (x : α) : List α :=
  (if capacity ≤ items.length then items.drop (items.length + 1 - capacity) else items) ++ [x]

/-- Adds an item after others, oldest first. If there are as many already as there is
room for, the oldest one is dropped first. -/
def pushDroppingOldest (capacity : Nat) (items : List α) (x : α) : List α :=
  (if capacity ≤ items.length then items.tail else items) ++ [x]

/-- The last items of a list, no more than the capacity. -/
def keepRecent (capacity : Nat) (items : List α) : List α :=
  items.drop (items.length - capacity)

@[simp] theorem keepRecent_nil (capacity : Nat) : keepRecent capacity ([] : List α) = [] := by
  simp [keepRecent]

theorem length_keepRecent (capacity : Nat) (items : List α) :
    (keepRecent capacity items).length = min items.length capacity := by
  rw [keepRecent, List.length_drop]
  omega

/-- The last items of a list and one more are the last items of the longer list. -/
theorem keepRecent_append_singleton {capacity : Nat} (hcapacity : 0 < capacity) (items : List α)
    (x : α) : keepRecent capacity (items ++ [x]) =
      items.drop (items.length + 1 - capacity) ++ [x] := by
  rw [keepRecent, List.length_append, List.length_singleton,
    List.drop_append_of_le_length (by omega)]

/-- Where just the excess is dropped, the last items of a list become those of the longer
list. -/
theorem pushDroppingExcess_keepRecent {capacity : Nat} (hcapacity : 0 < capacity)
    (items : List α) (x : α) :
    pushDroppingExcess capacity (keepRecent capacity items) x =
      keepRecent capacity (items ++ [x]) := by
  rw [pushDroppingExcess, keepRecent_append_singleton hcapacity, length_keepRecent, keepRecent]
  split
  · rw [List.drop_drop]
    congr 2
    omega
  · congr 2
    omega

/-- So they do where the oldest item is dropped. -/
theorem pushDroppingOldest_keepRecent {capacity : Nat} (hcapacity : 0 < capacity)
    (items : List α) (x : α) :
    pushDroppingOldest capacity (keepRecent capacity items) x =
      keepRecent capacity (items ++ [x]) := by
  rw [pushDroppingOldest, keepRecent_append_singleton hcapacity, length_keepRecent, keepRecent]
  split
  · rw [← List.drop_one, List.drop_drop]
    congr 2
    omega
  · congr 2
    omega

end JavaSyntax
