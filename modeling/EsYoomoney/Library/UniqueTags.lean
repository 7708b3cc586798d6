import Mathlib.Algebra.Order.BigOperators.Group.List
import Mathlib.Data.List.Pairwise

namespace EventSourcing

variable {κ ε τ : Type}

/-- No tag is borne by two entries, be they in one stream or in two. Entries may have no tag. -/
def UniqueTags (tag : ε → Option τ) (stream : κ → List ε) : Prop :=
  ∀ (left right : κ) (leftAt rightAt : Nat) (first second : ε) (name : τ), (stream left)[leftAt]? = some first →
    (stream right)[rightAt]? = some second → tag first = some name → tag second = some name →
    left = right ∧ leftAt = rightAt

theorem nodup_tagged {tag : ε → Option τ} {entries : List ε} (distinct : (entries.filterMap tag).Nodup) :
    (entries.filter fun entry => (tag entry).isSome).Nodup := by
  induction entries with
  | nil => exact List.nodup_nil
  | cons entry entries ih =>
    cases borne : tag entry with
    | none =>
      rw [List.filterMap_cons_none borne] at distinct
      rw [List.filter_cons_of_neg (by simp [borne])]
      exact ih distinct
    | some name =>
      rw [List.filterMap_cons_some borne] at distinct
      rcases List.nodup_cons.mp distinct with ⟨fresh, rest⟩
      rw [List.filter_cons_of_pos (by simp [borne])]
      refine List.nodup_cons.mpr ⟨fun member => ?_, ih rest⟩
      exact fresh (List.mem_filterMap.mpr ⟨entry, (List.mem_filter.mp member).1, borne⟩)

/-- What is named at most once, and only if it is named among others, adds up to no more than those. -/
theorem sum_le_of_nodup {μ : Type} [AddCommMonoid μ] [PartialOrder μ] [IsOrderedAddMonoid μ] {few many : List τ}
    (value : τ → μ) (distinct : few.Nodup) (contained : few ⊆ many) (covered : ∀ item ∈ many, 0 ≤ value item) :
    (few.map value).sum ≤ (many.map value).sum := by
  rcases List.subperm_of_subset distinct contained with ⟨chosen, same, part⟩
  rw [← (same.map value).sum_eq]
  apply (part.map value).sum_le_sum
  intro item member
  rcases List.mem_map.mp member with ⟨named, listed, rfl⟩
  exact covered named listed

namespace UniqueTags

variable {tag : ε → Option τ} {stream after : κ → List ε} {key : κ} {batch : List ε}

theorem of_empty (none : ∀ key, stream key = []) : UniqueTags tag stream := by
  intro left right leftAt rightAt first second name here
  rw [none left] at here
  cases here

theorem located (grown : after key = stream key ++ batch) (frame : ∀ other, other ≠ key → after other = stream other)
    {place : κ} {position : Nat} {entry : ε} (found : (after place)[position]? = some entry) :
    (stream place)[position]? = some entry ∨
      ∃ offset, place = key ∧ position = (stream key).length + offset ∧ batch[offset]? = some entry := by
  by_cases own : place = key
  · subst own
    rw [grown] at found
    by_cases early : position < (stream place).length
    · rw [List.getElem?_append_left early] at found
      exact Or.inl found
    · have reached : (stream place).length ≤ position := Nat.le_of_not_lt early
      rw [List.getElem?_append_right reached] at found
      exact Or.inr ⟨position - (stream place).length, rfl, by omega, found⟩
  · rw [frame place own] at found
    exact Or.inl found

theorem append (unique : UniqueTags tag stream) (grown : after key = stream key ++ batch)
    (frame : ∀ other, other ≠ key → after other = stream other)
    (distinct : batch.Pairwise fun first second => ∀ name, tag first = some name → tag second ≠ some name)
    (fresh : ∀ entry ∈ batch, ∀ name, tag entry = some name → ∀ other, ∀ old ∈ stream other, tag old ≠ some name) :
    UniqueTags tag after := by
  intro left right leftAt rightAt first second name here there firstTag secondTag
  rcases located grown frame here with old | ⟨offset, rfl, rfl, new⟩
  · rcases located grown frame there with older | ⟨offset, rfl, rfl, new⟩
    · exact unique left right leftAt rightAt first second name old older firstTag secondTag
    · have stored := List.mem_of_getElem? old
      exact absurd firstTag (fresh second (List.mem_of_getElem? new) name secondTag left first stored)
  · rcases located grown frame there with old | ⟨other, rfl, rfl, newer⟩
    · have stored := List.mem_of_getElem? old
      exact absurd secondTag (fresh first (List.mem_of_getElem? new) name firstTag right second stored)
    · refine ⟨rfl, congrArg _ ?_⟩
      rcases List.getElem?_eq_some_iff.mp new with ⟨inside, rfl⟩
      rcases List.getElem?_eq_some_iff.mp newer with ⟨within, rfl⟩
      rw [List.pairwise_iff_getElem] at distinct
      rcases Nat.lt_trichotomy offset other with less | same | more
      · exact absurd secondTag (distinct offset other inside within less name firstTag)
      · exact same
      · exact absurd firstTag (distinct other offset within inside more name secondTag)

theorem nodup (unique : UniqueTags tag stream) (key : κ) : ((stream key).filterMap tag).Nodup := by
  have apart : (stream key).Pairwise fun first second => ∀ name, tag first = some name → tag second ≠ some name := by
    rw [List.pairwise_iff_getElem]
    intro leftAt rightAt inside within less name firstTag secondTag
    have same := (unique key key leftAt rightAt _ _ name (List.getElem?_eq_getElem inside)
      (List.getElem?_eq_getElem within) firstTag secondTag).2
    omega
  refine List.Pairwise.filterMap tag ?_ apart
  intro first second different name borne other bears same
  subst same
  exact different name borne bears

end UniqueTags

end EventSourcing
