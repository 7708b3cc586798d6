import Mathlib.Data.List.Infix

namespace EventSourcing

variable {α : Type*}

/-- The page behind `offset` items. -/
def page (items : List α) (offset size : Nat) : List α := (items.drop offset).take size

theorem page_getElem? (items : List α) (offset size place : Nat) :
    (page items offset size)[place]? = if place < size then items[offset + place]? else none := by
  rw [page, List.getElem?_take, List.getElem?_drop]

theorem page_beyond {items : List α} {offset : Nat} (beyond : items.length ≤ offset) (size : Nat) :
    page items offset size = [] := by
  rw [page, List.drop_eq_nil_of_le beyond, List.take_nil]

/-- Consecutive pages are one front part of the items. -/
theorem pages_flatMap (items : List α) (size count : Nat) :
    (List.range count).flatMap (fun index => page items (index * size) size) = items.take (count * size) := by
  induction count with
  | zero => simp
  | succ count ih =>
    rw [List.range_succ, List.flatMap_append, ih, List.flatMap_singleton, page, ← List.take_add, Nat.succ_mul]

/-- The page behind a front part of the items goes on where that ends. -/
theorem front_page {front items : List α} (initial : front <+: items) (size : Nat) :
    front ++ page items front.length size = items.take (front.length + size) := by
  rw [List.take_add, page, ← List.prefix_iff_eq_take.mp initial]

/-- A page that is not full reaches the end of the items. -/
theorem short_page {items : List α} {offset size : Nat} (short : (page items offset size).length ≠ size) :
    items.length ≤ offset + size := by
  rw [page, List.length_take, List.length_drop] at short
  omega

/-- As many pages as the length divided by the page size, rounded up, hold all items. -/
theorem pages_partition (items : List α) {size : Nat} (positive : 0 < size) :
    (List.range ((items.length + size - 1) / size)).flatMap (fun index => page items (index * size) size) = items := by
  rw [pages_flatMap, List.take_of_length_le]
  have enough := Nat.lt_div_mul_add positive (a := items.length + size - 1)
  omega

theorem page_stable {earlier later : List α} (initial : earlier <+: later) {offset size : Nat}
    (full : offset + size ≤ earlier.length) : page later offset size = page earlier offset size := by
  rcases initial with ⟨rest, rfl⟩
  rw [page, page, List.drop_append_of_le_length (by omega), List.take_append_of_le_length (by simp; omega)]

end EventSourcing
