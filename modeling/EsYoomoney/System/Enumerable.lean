import EsYoomoney.Library.Paging
import EsYoomoney.System.Values

namespace Yoomoney

open EventSourcing

namespace Enumerable

variable {α : Type}

/-- `Array.MaxLength` -/
def maxLength : Nat := 0x7FFFFFC7

def toArray (items : List α) : Except Exception (List α) :=
  if items.length ≤ maxLength then .ok items else .error .outOfMemoryException

/-- A negative count skips nothing. -/
def skip (items : List α) (count : Int32) : List α := items.drop count.toInt.toNat

/-- A negative count takes nothing. -/
def take (items : List α) (count : Int32) : List α := items.take count.toInt.toNat

theorem take_skip (items : List α) (offset size : Int32) :
    take (skip items offset) size = page items offset.toInt.toNat size.toInt.toNat := rfl

/-- The unchecked product of a page's offset is exact as long as it is an `int`. -/
theorem offset_exact {page size : Int32} (first : 1 ≤ page.toInt) (sized : 0 ≤ size.toInt)
    (fits : (page.toInt - 1) * size.toInt < 2 ^ 31) : ((page - 1) * size).toInt = (page.toInt - 1) * size.toInt := by
  have below := page.toInt_lt
  have before : (page - 1).toInt = page.toInt - 1 := by
    rw [Int32.toInt_sub, Int32.toInt_one]
    exact Int.bmod_eq_of_le (by omega) (by omega)
  have product : 0 ≤ (page.toInt - 1) * size.toInt := Int.mul_nonneg (by omega) sized
  rw [Int32.toInt_mul, before]
  exact Int.bmod_eq_of_le (by omega) (by omega)

end Enumerable

end Yoomoney
