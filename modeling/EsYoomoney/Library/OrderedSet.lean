import Mathlib.Data.List.Nodup
import Mathlib.Data.List.Dedup
import Mathlib.Data.List.Infix

namespace EventSourcing

/-- A set enumerated in the order in which its members were first added. -/
structure OrderedSet (α : Type*) where
  toList : List α
  nodup : toList.Nodup

namespace OrderedSet

variable {α : Type*}

def empty : OrderedSet α := ⟨[], List.nodup_nil⟩

@[simp] theorem empty_toList : (empty : OrderedSet α).toList = [] := rfl

variable [DecidableEq α]

def add (set : OrderedSet α) (item : α) : OrderedSet α :=
  if fresh : item ∈ set.toList then set
  else ⟨set.toList ++ [item], List.nodup_append.mpr
    ⟨set.nodup, List.nodup_singleton item, fun _ member _ single same =>
      fresh (by rw [← List.mem_singleton.mp single, ← same]; exact member)⟩⟩

def addAll (set : OrderedSet α) (items : List α) : OrderedSet α := items.foldl add set

@[simp] theorem addAll_nil (set : OrderedSet α) : set.addAll [] = set := rfl

theorem addAll_cons (set : OrderedSet α) (item : α) (items : List α) :
    set.addAll (item :: items) = (set.add item).addAll items := rfl

@[simp] theorem addAll_append (set : OrderedSet α) (left right : List α) :
    set.addAll (left ++ right) = (set.addAll left).addAll right := List.foldl_append

theorem add_of_mem {set : OrderedSet α} {item : α} (member : item ∈ set.toList) : set.add item = set :=
  dif_pos member

theorem add_toList_of_fresh {set : OrderedSet α} {item : α} (fresh : item ∉ set.toList) :
    (set.add item).toList = set.toList ++ [item] := by
  unfold add
  rw [dif_neg fresh]

theorem addAll_toList {set : OrderedSet α} {items : List α} (distinct : (set.toList ++ items).Nodup) :
    (set.addAll items).toList = set.toList ++ items := by
  induction items generalizing set with
  | nil => simp
  | cons item items ih =>
    have fresh : item ∉ set.toList := by
      intro member
      exact (List.nodup_append.mp distinct).2.2 item member item (by simp) rfl
    have shifted : set.toList ++ item :: items = (set.add item).toList ++ items := by
      rw [add_toList_of_fresh fresh, List.append_assoc, List.singleton_append]
    rw [addAll_cons, ih (by rw [← shifted]; exact distinct), ← shifted]

theorem mem_add {set : OrderedSet α} {item other : α} :
    other ∈ (set.add item).toList ↔ other ∈ set.toList ∨ other = item := by
  by_cases member : item ∈ set.toList
  · rw [add_of_mem member]
    exact ⟨Or.inl, fun either => either.elim id fun same => same ▸ member⟩
  · simp [add_toList_of_fresh member]

theorem mem_addAll {set : OrderedSet α} {items : List α} {other : α} :
    other ∈ (set.addAll items).toList ↔ other ∈ set.toList ∨ other ∈ items := by
  induction items generalizing set with
  | nil => simp
  | cons item items ih => rw [addAll_cons, ih, mem_add, List.mem_cons, or_assoc]

theorem addAll_initial (set : OrderedSet α) (items : List α) : set.toList <+: (set.addAll items).toList := by
  induction items generalizing set with
  | nil => exact List.prefix_refl _
  | cons item items ih =>
    refine List.IsPrefix.trans ?_ (ih (set.add item))
    by_cases member : item ∈ set.toList
    · rw [add_of_mem member]
    · rw [add_toList_of_fresh member]
      exact List.prefix_append _ _

theorem addAll_cons_toList (item : α) (items : List α) :
    ∃ later, (empty.addAll (item :: items)).toList = item :: later := by
  rcases addAll_initial (empty.add item) items with ⟨later, whole⟩
  exact ⟨later, whole.symm⟩

theorem addAll_length_le (set : OrderedSet α) (items : List α) :
    (set.addAll items).toList.length ≤ set.toList.length + items.length := by
  induction items generalizing set with
  | nil => simp
  | cons item items ih =>
    have rest := ih (set.add item)
    have step : (set.add item).toList.length ≤ set.toList.length + 1 := by
      by_cases member : item ∈ set.toList
      · rw [add_of_mem member]
        omega
      · simp [add_toList_of_fresh member]
    rw [addAll_cons, List.length_cons]
    omega

theorem addAll_length_iff (set : OrderedSet α) (items : List α) :
    (set.addAll items).toList.length = set.toList.length + items.length ↔
      (set.toList ++ items).Nodup := by
  constructor
  · intro full
    induction items generalizing set with
    | nil => simpa using set.nodup
    | cons item items ih =>
      rw [addAll_cons, List.length_cons] at full
      have rest := addAll_length_le (set.add item) items
      by_cases member : item ∈ set.toList
      · rw [add_of_mem member] at full rest
        omega
      · have grown : (set.add item).toList = set.toList ++ [item] := add_toList_of_fresh member
        have tail := ih (set.add item) (by rw [full, grown, List.length_append, List.length_singleton]; omega)
        simpa [grown] using tail
  · intro distinct
    rw [addAll_toList distinct, List.length_append]

/-- The members of a kind, which `add` lines up as a set of that kind alone would. -/
theorem addAll_filter (kind : α → Bool) (set kept : OrderedSet α) (items : List α)
    (same : set.toList.filter kind = kept.toList) :
    (set.addAll items).toList.filter kind = (kept.addAll (items.filter kind)).toList := by
  induction items generalizing set kept with
  | nil => exact same
  | cons item items ih =>
    have members : ∀ other, kind other = true → (other ∈ set.toList ↔ other ∈ kept.toList) := by
      intro other right
      rw [← same, List.mem_filter, and_iff_left right]
    cases right : kind item with
    | false =>
      rw [List.filter_cons_of_neg (by simp [right]), addAll_cons]
      apply ih
      by_cases member : item ∈ set.toList
      · rw [add_of_mem member, same]
      · rw [add_toList_of_fresh member, List.filter_append, same, List.filter_singleton, right]
        simp
    | true =>
      rw [List.filter_cons_of_pos right, addAll_cons, addAll_cons]
      apply ih
      by_cases member : item ∈ set.toList
      · rw [add_of_mem member, add_of_mem ((members item right).mp member), same]
      · have fresh : item ∉ kept.toList := fun inside => member ((members item right).mpr inside)
        rw [add_toList_of_fresh member, add_toList_of_fresh fresh, List.filter_append, same, List.filter_singleton,
          right]
        rfl

theorem addAll_filter_of_nodup (kind : α → Bool) {items : List α} (distinct : (items.filter kind).Nodup) :
    (empty.addAll items).toList.filter kind = items.filter kind := by
  rw [addAll_filter kind empty empty items rfl, addAll_toList (by simpa using distinct)]
  rfl

theorem addAll_dedup (items : List α) : (empty.addAll items).toList.Perm items.dedup := by
  apply (List.perm_ext_iff_of_nodup (empty.addAll items).nodup (List.nodup_dedup items)).mpr
  intro item
  rw [mem_addAll, List.mem_dedup, empty_toList]
  simp

end OrderedSet

def distinctBy {α β : Type*} [DecidableEq β] (key : α → β) : List α → List α
  | [] => []
  | item :: items => item :: (distinctBy key items).filter (fun other => key other ≠ key item)

theorem distinctBy_length_le {α β : Type*} [DecidableEq β] (key : α → β) (items : List α) :
    (distinctBy key items).length ≤ items.length := by
  induction items with
  | nil => exact Nat.le_refl _
  | cons item items ih =>
    have kept := List.length_filter_le (fun other => decide (key other ≠ key item)) (distinctBy key items)
    simp only [distinctBy, List.length_cons]
    omega

theorem distinctBy_of_nodup {α β : Type*} [DecidableEq β] {key : α → β} {items : List α}
    (distinct : (items.map key).Nodup) : distinctBy key items = items := by
  induction items with
  | nil => rfl
  | cons item items ih =>
    rcases List.nodup_cons.mp distinct with ⟨fresh, rest⟩
    rw [distinctBy, ih rest, List.filter_eq_self.mpr]
    intro other member
    have different : key other ≠ key item := fun same => fresh (by rw [← same]; exact List.mem_map_of_mem member)
    simpa using different

theorem distinctBy_length_iff {α β : Type*} [DecidableEq β] (key : α → β) (items : List α) :
    (distinctBy key items).length = items.length ↔ (items.map key).Nodup := by
  constructor
  · induction items with
    | nil => simp
    | cons item items ih =>
      intro full
      have kept := List.length_filter_le (fun other => decide (key other ≠ key item)) (distinctBy key items)
      have below := distinctBy_length_le key items
      simp only [distinctBy, List.length_cons] at full
      have rest := ih (by omega)
      have whole : (distinctBy key items).filter (fun other => decide (key other ≠ key item)) =
          distinctBy key items :=
        List.filter_sublist.eq_of_length (by omega)
      rw [distinctBy_of_nodup rest] at whole
      refine List.nodup_cons.mpr ⟨?_, rest⟩
      intro member
      rcases List.mem_map.mp member with ⟨other, inside, same⟩
      have different := List.filter_eq_self.mp whole other inside
      simp [same] at different
  · intro distinct
    rw [distinctBy_of_nodup distinct]

end EventSourcing
