import Mathlib.Data.Int.Basic
import Mathlib.Algebra.Group.Int.Even
import Mathlib.Tactic.Ring

namespace EventSourcing

/-- A decimal floating-point format: a signed coefficient below `bound`, scaled by a power of ten.
    A number is held as a whole multiple of the smallest unit, `10 ^ digits` of which make one. -/
structure DecimalFormat where
  bound : Nat
  digits : Nat
  positive : 0 < bound

namespace DecimalFormat

variable (format : DecimalFormat)

def Representable (units : Int) : Prop :=
  ∃ dropped ∈ List.range (format.digits + 1),
    (10 ^ dropped : Int) ∣ units ∧ units.natAbs < format.bound * 10 ^ dropped

instance (units : Int) : Decidable (format.Representable units) :=
  inferInstanceAs (Decidable (∃ dropped ∈ List.range (format.digits + 1), _))

/-- Whole multiples of one place are representable as long as there are less of them than the bound. -/
theorem representable_of_dvd {places : Nat} (within : places ≤ format.digits) {units : Int}
    (divides : (10 ^ places : Int) ∣ units) (small : units.natAbs < format.bound * 10 ^ places) :
    format.Representable units :=
  ⟨places, List.mem_range.mpr (Nat.lt_succ_of_le within), divides, small⟩

def roundHalfEven (units divisor : Int) : Int :=
  let quotient := units / divisor
  let remainder := units % divisor
  if 2 * remainder < divisor then quotient
  else if divisor < 2 * remainder then quotient + 1
  else if quotient % 2 = 0 then quotient else quotient + 1

/-- The finest scale whose rounded coefficient fits; none when even the coarsest overflows. -/
def round (units : Int) : Option Int :=
  (List.range (format.digits + 1)).findSome? fun dropped =>
    let coefficient := roundHalfEven units (10 ^ dropped)
    if coefficient.natAbs < format.bound then some (coefficient * 10 ^ dropped) else none

theorem roundHalfEven_cases (units : Int) {divisor : Int} (positive : 0 < divisor) :
    roundHalfEven units divisor = units / divisor ∨
      0 < units % divisor ∧ roundHalfEven units divisor = units / divisor + 1 := by
  unfold roundHalfEven
  dsimp only
  split
  · exact Or.inl rfl
  · have rest : 0 < units % divisor := by omega
    split
    · exact Or.inr ⟨rest, rfl⟩
    · split
      · exact Or.inl rfl
      · exact Or.inr ⟨rest, rfl⟩

theorem roundHalfEven_of_dvd {units divisor : Int} (positive : 0 < divisor) (divides : divisor ∣ units) :
    roundHalfEven units divisor = units / divisor := by
  have exact : units % divisor = 0 := Int.emod_eq_zero_of_dvd divides
  rcases roundHalfEven_cases units positive with same | ⟨rest, -⟩
  · exact same
  · omega

theorem le_roundHalfEven {units divisor low : Int} (positive : 0 < divisor) (above : low * divisor ≤ units) :
    low ≤ roundHalfEven units divisor := by
  have floor : low ≤ units / divisor := (Int.le_ediv_iff_mul_le positive).mpr above
  rcases roundHalfEven_cases units positive with same | ⟨-, same⟩ <;> omega

/-- A multiple of the place is not rounded past. -/
theorem roundHalfEven_le {units divisor high : Int} (positive : 0 < divisor) (below : units ≤ high * divisor) :
    roundHalfEven units divisor ≤ high := by
  rcases roundHalfEven_cases units positive with same | ⟨rest, same⟩
  · rw [same]
    exact Int.ediv_le_of_le_mul positive below
  · have less : units / divisor < high := by
      apply Int.ediv_lt_of_lt_mul positive
      rcases Int.lt_or_eq_of_le below with strict | full
      · exact strict
      · rw [full, Int.mul_emod_left] at rest
        omega
    omega

theorem pow_ten_pos (dropped : Nat) : (0 : Int) < 10 ^ dropped := Int.pow_pos (by decide)

theorem natAbs_mul_pow (coefficient : Int) (dropped : Nat) :
    (coefficient * 10 ^ dropped).natAbs = coefficient.natAbs * 10 ^ dropped := by
  rw [Int.natAbs_mul, Int.natAbs_pow]
  rfl

theorem round_representable {units rounded : Int} (fits : format.round units = some rounded) :
    format.Representable rounded := by
  rcases List.exists_of_findSome?_eq_some fits with ⟨dropped, member, found⟩
  dsimp only at found
  split at found
  · rename_i small
    cases found
    refine ⟨dropped, member, Int.dvd_mul_left _ _, ?_⟩
    rw [natAbs_mul_pow]
    exact Nat.mul_lt_mul_of_pos_right small (Nat.pow_pos (by decide))
  · contradiction

theorem round_nonneg {units rounded : Int} (fits : format.round units = some rounded) (covered : 0 ≤ units) :
    0 ≤ rounded := by
  rcases List.exists_of_findSome?_eq_some fits with ⟨dropped, member, found⟩
  dsimp only at found
  split at found
  · cases found
    have coefficient : 0 ≤ roundHalfEven units (10 ^ dropped) :=
      le_roundHalfEven (pow_ten_pos dropped) (by rwa [Int.zero_mul])
    exact Int.mul_nonneg coefficient (Int.le_of_lt (pow_ten_pos dropped))
  · contradiction

theorem round_exact {units : Int} (representable : format.Representable units) :
    format.round units = some units := by
  rcases representable with ⟨dropped, member, divides, small⟩
  have exactAt : ∀ places, places ≤ dropped →
      roundHalfEven units (10 ^ places) * 10 ^ places = units := by
    intro places below
    have coarser : (10 ^ places : Int) ∣ units := Int.dvd_trans (pow_dvd_pow 10 below) divides
    rw [roundHalfEven_of_dvd (pow_ten_pos places) coarser, Int.ediv_mul_cancel coarser]
  have fitsAt : (roundHalfEven units (10 ^ dropped)).natAbs < format.bound := by
    have whole := exactAt dropped (Nat.le_refl _)
    rw [← whole, natAbs_mul_pow] at small
    exact Nat.lt_of_mul_lt_mul_right small
  unfold round
  have split : List.range (format.digits + 1) =
      List.range dropped ++ dropped :: (List.range (format.digits + 1)).drop (dropped + 1) := by
    have below : dropped < format.digits + 1 := List.mem_range.mp member
    apply List.ext_getElem
    · simp
      omega
    · intro place inside _
      simp only [List.getElem_range, List.getElem_append, List.length_range, List.getElem_cons, List.getElem_drop]
      split
      · rfl
      · split <;> omega
  rw [split, List.findSome?_append, List.findSome?_cons]
  -- the search may stop at a finer scale, which then gives the same number
  simp only [fitsAt, if_true, exactAt dropped (Nat.le_refl _)]
  cases early : (List.range dropped).findSome? (fun places =>
      if (roundHalfEven units (10 ^ places)).natAbs < format.bound then
        some (roundHalfEven units (10 ^ places) * 10 ^ places) else none) with
  | none => rfl
  | some rounded =>
    rcases List.exists_of_findSome?_eq_some early with ⟨places, below, found⟩
    split at found
    · rw [exactAt places (Nat.le_of_lt (List.mem_range.mp below))] at found
      cases found
      rfl
    · contradiction

/-- What is no larger than a representable number can be rounded to one. -/
theorem round_within {units larger : Int} (representable : format.Representable larger)
    (within : units.natAbs ≤ larger.natAbs) : ∃ rounded, format.round units = some rounded := by
  rcases representable with ⟨dropped, member, ⟨coefficient, rfl⟩, small⟩
  rw [Int.mul_comm, natAbs_mul_pow] at small within
  have narrow : coefficient.natAbs < format.bound := Nat.lt_of_mul_lt_mul_right small
  have span : (units.natAbs : Int) ≤ (coefficient.natAbs : Int) * 10 ^ dropped := by exact_mod_cast within
  have fits : (roundHalfEven units (10 ^ dropped)).natAbs < format.bound := by
    have low : -(coefficient.natAbs : Int) ≤ roundHalfEven units (10 ^ dropped) :=
      le_roundHalfEven (pow_ten_pos dropped) (by rw [Int.neg_mul]; omega)
    have high : roundHalfEven units (10 ^ dropped) ≤ coefficient.natAbs :=
      roundHalfEven_le (pow_ten_pos dropped) (by omega)
    omega
  rw [← Option.isSome_iff_exists, round, List.findSome?_isSome_iff]
  exact ⟨dropped, member, by simp only [fits, if_true, Option.isSome_some]⟩

structure Value where
  units : Int
  representable : format.Representable units
deriving DecidableEq

variable {format}

def Value.zero : format.Value :=
  ⟨0, 0, by simp, Int.dvd_zero _, by simpa using format.positive⟩

def Value.quantize (units : Int) : Option format.Value :=
  match fits : format.round units with
  | some rounded => some ⟨rounded, format.round_representable fits⟩
  | none => none

def Value.add (left right : format.Value) : Option format.Value := quantize (left.units + right.units)

def Value.sub (left right : format.Value) : Option format.Value := quantize (left.units - right.units)

theorem Value.quantize_exact {units : Int} (representable : format.Representable units) :
    Value.quantize units = some (⟨units, representable⟩ : format.Value) := by
  unfold Value.quantize
  have exact := format.round_exact representable
  split
  · rename_i rounded fits
    have same : rounded = units := Option.some.inj (fits.symm.trans exact)
    subst same
    rfl
  · rename_i overflow
    rw [exact] at overflow
    contradiction

theorem Value.quantize_within {units : Int} (larger : format.Value) (within : units.natAbs ≤ larger.units.natAbs) :
    ∃ value : format.Value, Value.quantize units = some value := by
  obtain ⟨rounded, fits⟩ := format.round_within larger.representable within
  unfold Value.quantize
  split
  · exact ⟨_, rfl⟩
  · rename_i overflow
    rw [overflow] at fits
    cases fits

theorem Value.quantize_nonneg {units : Int} {value : format.Value} (fits : Value.quantize units = some value)
    (covered : 0 ≤ units) : 0 ≤ value.units := by
  unfold Value.quantize at fits
  split at fits
  · rename_i rounded found
    cases fits
    exact format.round_nonneg found covered
  · cases fits

end DecimalFormat

end EventSourcing
