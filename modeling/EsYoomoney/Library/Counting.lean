import Mathlib.Algebra.BigOperators.Group.Finset.Piecewise
import Mathlib.Algebra.Order.BigOperators.Group.Finset
import Mathlib.Data.List.Perm.Subperm

namespace EventSourcing

variable {α κ : Type}

/-- What is counted key by key is counted once. -/
theorem sum_countP_le [DecidableEq κ] (keys : Finset κ) (key : α → κ) (counts : α → Bool) (items : List α) :
    ∑ name ∈ keys, (items.filter (key · = name)).countP counts ≤ items.countP counts := by
  induction items with
  | nil => simp
  | cons item items ih =>
    have apart : ∀ name, ((item :: items).filter (key · = name)).countP counts =
        (items.filter (key · = name)).countP counts + if key item = name ∧ counts item then 1 else 0 := by
      intro name
      by_cases own : key item = name <;> by_cases counted : counts item = true <;> simp [own, counted]
    simp only [apart, Finset.sum_add_distrib, List.countP_cons]
    apply Nat.add_le_add ih
    by_cases counted : counts item = true
    · simp only [counted, and_true, if_true, Finset.sum_ite_eq]
      split <;> omega
    · simp [counted]

theorem countP_positions (counts : α → Bool) (items : List α) :
    (List.range items.length).countP (fun position => items[position]?.any counts) = items.countP counts := by
  induction items using List.reverseRecOn with
  | nil => rfl
  | append_singleton items item ih =>
    rw [List.length_append, List.length_singleton, List.range_succ, List.countP_append, List.countP_append, ← ih]
    congr 1
    · apply List.countP_congr
      intro position member
      rw [List.getElem?_append_left (List.mem_range.mp member)]
    · simp [List.countP_singleton]

/-- Positions of a list, none twice, that hold counted items are no more than those items. -/
theorem countP_le_of_nodup {positions : List Nat} {items : List α} (distinct : positions.Nodup)
    (counts : α → Bool) (chosen : Nat → Bool)
    (held : ∀ position ∈ positions, chosen position → ∃ item, items[position]? = some item ∧ counts item) :
    positions.countP chosen ≤ items.countP counts := by
  rw [← countP_positions counts items, List.countP_eq_length_filter, List.countP_eq_length_filter]
  apply (List.subperm_of_subset (distinct.filter _) _).length_le
  intro position member
  obtain ⟨listed, picked⟩ := List.mem_filter.mp member
  obtain ⟨item, found, counted⟩ := held position listed picked
  refine List.mem_filter.mpr ⟨List.mem_range.mpr (List.getElem?_eq_some_iff.mp found).1, ?_⟩
  rw [found]
  exact counted

end EventSourcing
