import EsYoomoney.Library.DecimalFormat

namespace Yoomoney

open EventSourcing

inductive Exception where
  | domainException (message : String)
  | argumentNullException
  | nullReferenceException
  | formatException
  | uriFormatException
  | overflowException
  | concurrencyException
  | yandexCheckoutException
  | outOfMemoryException
deriving DecidableEq, Repr

abbrev DateTime := Nat

theorem Exception.bind_ok {α β : Type} {value : Except Exception α} {next : α → Except Exception β} {result : β}
    (returned : value >>= next = .ok result) : ∃ middle, value = .ok middle ∧ next middle = .ok result := by
  cases value with
  | error error => cases returned
  | ok middle => exact ⟨middle, rfl, returned⟩

theorem Exception.mapM_ok {α β : Type} {change : α → Except Exception β} {result : α → β} {items : List α}
    (each : ∀ item ∈ items, change item = .ok (result item)) : items.mapM change = .ok (items.map result) := by
  induction items with
  | nil => rfl
  | cons item items ih =>
    rw [List.mapM_cons, each item List.mem_cons_self, ih fun other member => each other (List.mem_cons_of_mem _ member)]
    rfl

/-- `System.Decimal`: a 96-bit coefficient and up to 28 decimal places. -/
abbrev decimalFormat : DecimalFormat := ⟨2 ^ 96, 28, by decide⟩

/-- Two decimals of one numeric value are equal, whatever scale each was written with. -/
abbrev Decimal := decimalFormat.Value

namespace Decimal

def zero : Decimal := DecimalFormat.Value.zero

def ofNat (amount : Nat) (small : amount < 2 ^ 96) : Decimal :=
  ⟨amount * 10 ^ 28, 28, by decide, Int.dvd_mul_left _ _, by
    rw [DecimalFormat.natAbs_mul_pow]
    exact Nat.mul_lt_mul_of_pos_right small (by decide)⟩

/-- The `+` operator: rounds to the places that fit and throws when none do. -/
def add (left right : Decimal) : Except Exception Decimal :=
  match DecimalFormat.Value.add left right with
  | some sum => .ok sum
  | none => .error .overflowException

def sub (left right : Decimal) : Except Exception Decimal :=
  match DecimalFormat.Value.sub left right with
  | some difference => .ok difference
  | none => .error .overflowException

/-- `Enumerable.Sum` over decimals, started from a running total. -/
def sumFrom (total : Decimal) : List Decimal → Except Exception Decimal
  | [] => .ok total
  | amount :: amounts => do
    let next ← total.add amount
    sumFrom next amounts

theorem add_exact {left right : Decimal} (representable : decimalFormat.Representable (left.units + right.units)) :
    left.add right = .ok ⟨left.units + right.units, representable⟩ := by
  unfold add DecimalFormat.Value.add
  rw [DecimalFormat.Value.quantize_exact representable]

theorem sub_exact {left right : Decimal} (representable : decimalFormat.Representable (left.units - right.units)) :
    left.sub right = .ok ⟨left.units - right.units, representable⟩ := by
  unfold sub DecimalFormat.Value.sub
  rw [DecimalFormat.Value.quantize_exact representable]

theorem add_error {left right : Decimal} {error : Exception} (thrown : left.add right = .error error) :
    error = .overflowException := by
  unfold add at thrown
  split at thrown <;> cases thrown
  rfl

theorem add_units {left right sum : Decimal} (added : left.add right = .ok sum)
    (representable : decimalFormat.Representable (left.units + right.units)) :
    sum.units = left.units + right.units := by
  rw [add_exact representable] at added
  cases added
  rfl

theorem add_nonneg {left right sum : Decimal} (added : left.add right = .ok sum)
    (covered : 0 ≤ left.units + right.units) : 0 ≤ sum.units := by
  unfold add at added
  split at added
  · rename_i found
    cases added
    exact DecimalFormat.Value.quantize_nonneg found covered
  · cases added

theorem sub_nonneg {left right difference : Decimal} (subtracted : left.sub right = .ok difference)
    (covered : right.units ≤ left.units) : 0 ≤ difference.units := by
  unfold sub at subtracted
  split at subtracted
  · rename_i found
    cases subtracted
    exact DecimalFormat.Value.quantize_nonneg found (by omega)
  · cases subtracted

/-- The difference of two numbers of one sign is no larger than the larger of them. -/
theorem sub_of_lt {left right : Decimal} (positive : 0 ≤ left.units) (less : left.units < right.units) :
    ∃ difference, left.sub right = .ok difference := by
  obtain ⟨difference, found⟩ := @DecimalFormat.Value.quantize_within _ (left.units - right.units) right (by omega)
  exact ⟨difference, by rw [sub, DecimalFormat.Value.sub, found]⟩

theorem sumFrom_units {total sum : Decimal} {amounts : List Decimal} (summed : sumFrom total amounts = .ok sum)
    (representable : ∀ count, decimalFormat.Representable (total.units + ((amounts.take count).map (·.units)).sum)) :
    sum.units = total.units + (amounts.map (·.units)).sum := by
  induction amounts generalizing total with
  | nil =>
    cases summed
    simp
  | cons amount amounts ih =>
    obtain ⟨next, step, later⟩ := Exception.bind_ok summed
    have exact := add_units step (by simpa using representable 1)
    have rest := ih later fun count => by
      simpa [exact, add_assoc] using representable (count + 1)
    rw [rest, exact, List.map_cons, List.sum_cons, add_assoc]

end Decimal

example : ((Decimal.ofNat (2 ^ 96 - 1) (by decide)).add ⟨5 * 10 ^ 27, by decide +kernel⟩) =
    .error .overflowException := by decide +kernel

end Yoomoney
