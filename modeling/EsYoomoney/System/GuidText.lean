import EsYoomoney.System.Guid
import Mathlib.Algebra.Order.Group.Nat
import Mathlib.Data.List.Range

namespace Yoomoney

namespace Guid

theorem hexDigit_hexChar {digit : Nat} (small : digit < 16) : hexDigit (hexChar digit) = some digit := by
  have each : ∀ digit : Fin 16, hexDigit (hexChar digit) = some digit.val := by decide
  exact each ⟨digit, small⟩

theorem hexChar_plain {digit : Nat} (small : digit < 16) :
    isWhiteSpace (hexChar digit) = false ∧ hexChar digit ≠ '(' ∧ hexChar digit ≠ '{' := by
  have each : ∀ digit : Fin 16, isWhiteSpace (hexChar digit) = false ∧ hexChar digit ≠ '(' ∧ hexChar digit ≠ '{' := by
    decide
  exact each ⟨digit, small⟩

theorem hexNumber_hexChars (digits : List Nat) (small : ∀ digit ∈ digits, digit < 16) :
    hexNumber (digits.map hexChar) = some (digits.foldl (fun value digit => 16 * value + digit) 0) := by
  unfold hexNumber
  generalize 0 = value
  induction digits generalizing value with
  | nil => rfl
  | cons digit digits ih =>
    rcases List.forall_mem_cons.mp small with ⟨first, rest⟩
    rw [List.map_cons, List.foldlM_cons, hexDigit_hexChar first]
    exact ih rest _

/-- The digits of a number, written from the front, add up to it. -/
theorem foldl_places (n count : Nat) :
    ((List.range count).map fun place => n / 16 ^ (count - 1 - place) % 16).foldl
      (fun value digit => 16 * value + digit) 0 = n % 16 ^ count := by
  induction count generalizing n with
  | zero => simp [Nat.mod_one]
  | succ count ih =>
    have front : ((List.range count).map fun place => n / 16 ^ (count + 1 - 1 - place) % 16) =
        (List.range count).map fun place => n / 16 / 16 ^ (count - 1 - place) % 16 := by
      apply List.map_congr_left
      intro place member
      have below := List.mem_range.mp member
      rw [Nat.div_div_eq_div_mul, ← Nat.pow_succ']
      congr 3
      omega
    rw [List.range_succ, List.map_append, List.foldl_append, front, ih]
    simp only [List.map_cons, List.map_nil, List.foldl_cons, List.foldl_nil, Nat.add_sub_cancel, Nat.sub_self,
      Nat.pow_zero, Nat.div_one]
    rw [Nat.pow_succ', Nat.mod_mul, Nat.add_comm]

theorem hexNumber_hexText (guid : Guid) : hexNumber guid.hexText = some guid.toNat := by
  have places : guid.hexText =
      ((List.range 32).map fun place => guid.toNat / 16 ^ (32 - 1 - place) % 16).map hexChar := by
    rw [List.map_map]
    rfl
  have below : guid.toNat < 16 ^ 32 := lt_of_lt_of_eq guid.isLt (by norm_num)
  rw [places, hexNumber_hexChars, foldl_places, Nat.mod_eq_of_lt below]
  intro digit member
  rcases List.mem_map.mp member with ⟨place, -, rfl⟩
  exact Nat.mod_lt _ (by decide)

theorem trim_plain {text : List Char} {first last : Char} (front : text.head? = some first)
    (back : text.getLast? = some last) (left : isWhiteSpace first = false) (right : isWhiteSpace last = false) :
    trim text = text := by
  rcases List.head?_eq_some_iff.mp front with ⟨rest, rfl⟩
  rcases List.getLast?_eq_some_iff.mp back with ⟨start, same⟩
  rw [trim, List.dropWhile_cons_of_neg (by simp [left]), same, List.reverse_append, List.reverse_singleton,
    List.singleton_append, List.dropWhile_cons_of_neg (by simp [right])]
  simp

def place (guid : Guid) (index : Nat) : Char := hexChar (guid.toNat / 16 ^ (31 - index) % 16)

theorem place_plain (guid : Guid) (index : Nat) :
    isWhiteSpace (guid.place index) = false ∧ guid.place index ≠ '(' ∧ guid.place index ≠ '{' :=
  hexChar_plain (Nat.mod_lt _ (by decide))

theorem tryParseExactD_toString (guid : Guid) : tryParseExactD guid.toString.toList = some guid := by
  have dashed : guid.toString.toList.length = 36 ∧ ∀ place ∈ dashes, guid.toString.toList[place]? = some '-' := by
    rw [toString, String.toList_ofList]
    refine ⟨rfl, ?_⟩
    intro place member
    simp only [dashes, List.mem_cons, List.not_mem_nil, or_false] at member
    rcases member with rfl | rfl | rfl | rfl <;> rfl
  have digits : slice guid.toString.toList 0 8 ++ slice guid.toString.toList 9 4 ++ slice guid.toString.toList 14 4 ++
      slice guid.toString.toList 19 4 ++ slice guid.toString.toList 24 12 = guid.hexText := by
    rw [toString, String.toList_ofList]
    rfl
  rw [tryParseExactD, if_pos dashed, digits, hexNumber_hexText]
  simp

/-- What a guid is written as is read as that guid. -/
theorem parse_toString (guid : Guid) : parse (some guid.toString) = .ok guid := by
  have trimmed : trim guid.toString.toList = guid.toString.toList := by
    rw [toString, String.toList_ofList]
    exact trim_plain rfl rfl (guid.place_plain 0).1 (guid.place_plain 31).1
  have first : guid.toString.toList[0]? = some (guid.place 0) := by
    rw [toString, String.toList_ofList]
    rfl
  have dash : guid.toString.toList[8]? = some '-' := by
    rw [toString, String.toList_ofList]
    rfl
  have long : ¬ guid.toString.toList.length < 32 := by
    rw [toString, String.toList_ofList]
    exact (by decide : ¬ 36 < 32)
  have read : tryParseGuid guid.toString.toList = some guid := by
    unfold tryParseGuid
    rw [trimmed]
    simp only [if_neg long, first, dash, Option.some.injEq, (guid.place_plain 0).2.1, (guid.place_plain 0).2.2, if_true,
      if_false]
    exact tryParseExactD_toString guid
  rw [parse, read]

end Guid

end Yoomoney
