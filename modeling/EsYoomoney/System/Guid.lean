import EsYoomoney.System.Values
import Mathlib.Data.BitVec

namespace Yoomoney

/-- `System.Guid`, as the 128 bits its 32 hexadecimal digits spell. -/
abbrev Guid := BitVec 128

namespace Guid

def Empty : Guid := 0

def slice (text : List Char) (start length : Nat) : List Char := (text.drop start).take length

def isWhiteSpace (c : Char) : Bool :=
  (9 ≤ c.toNat && c.toNat ≤ 13) || (0x2000 ≤ c.toNat && c.toNat ≤ 0x200a) ||
    c.toNat ∈ [0x20, 0x85, 0xa0, 0x1680, 0x2028, 0x2029, 0x202f, 0x205f, 0x3000]

def trim (text : List Char) : List Char :=
  ((text.dropWhile isWhiteSpace).reverse.dropWhile isWhiteSpace).reverse

def hexDigit (c : Char) : Option Nat :=
  if 48 ≤ c.toNat ∧ c.toNat ≤ 57 then some (c.toNat - 48)
  else if 65 ≤ c.toNat ∧ c.toNat ≤ 70 then some (c.toNat - 55)
  else if 97 ≤ c.toNat ∧ c.toNat ≤ 102 then some (c.toNat - 87)
  else none

def hexNumber (digits : List Char) : Option Nat :=
  digits.foldlM (fun value c => (hexDigit c).map (16 * value + ·)) 0

def dropHexPrefix : List Char → Option (List Char)
  | '0' :: 'x' :: rest => some rest
  | '0' :: 'X' :: rest => some rest
  | _ => none

/-- The lenient component reader: a `+`, then `0x`, then at most eight significant digits. -/
def tryParseHex (component : List Char) : Option Nat :=
  let unsigned := match component with
    | '+' :: rest => rest
    | other => other
  let digits := ((dropHexPrefix unsigned).getD unsigned).dropWhile (· == '0')
  if 8 < digits.length then none else hexNumber digits

def assemble (parts : List (Nat × Nat)) : Guid :=
  BitVec.ofNat 128 (parts.foldl (fun value part => value * 2 ^ part.2 + part.1 % 2 ^ part.2) 0)

/-- Components of the dashed form that carry a prefix of their own, as older versions accepted. -/
def tryCompatParsing (text : List Char) : Option Guid := do
  let a ← tryParseHex (slice text 0 8)
  let b ← tryParseHex (slice text 9 4)
  let c ← tryParseHex (slice text 14 4)
  let de ← tryParseHex (slice text 19 4)
  let fg ← tryParseHex (slice text 24 4)
  let hijk ← hexNumber (slice text 28 8)
  some (assemble [(a, 32), (b, 16), (c, 16), (de, 16), (fg, 16), (hijk, 32)])

def dashes : List Nat := [8, 13, 18, 23]

def tryParseExactD (text : List Char) : Option Guid :=
  if text.length = 36 ∧ ∀ place ∈ dashes, text[place]? = some '-' then
    match hexNumber (slice text 0 8 ++ slice text 9 4 ++ slice text 14 4 ++ slice text 19 4 ++ slice text 24 12) with
    | some value => some (BitVec.ofNat 128 value)
    | none => if text.any (· ∈ ['X', 'x', '+']) then tryCompatParsing text else none
  else none

def tryParseExactN (text : List Char) : Option Guid :=
  if text.length = 32 then (hexNumber text).map (BitVec.ofNat 128) else none

def tryParseEnclosed (opening closing : Char) (text : List Char) : Option Guid :=
  if text.length = 38 ∧ text[0]? = some opening ∧ text[37]? = some closing then
    tryParseExactD (slice text 1 36)
  else none

def tryParseExactB : List Char → Option Guid := tryParseEnclosed '{' '}'

def tryParseExactP : List Char → Option Guid := tryParseEnclosed '(' ')'

def hexComponent (separator : Char) (text : List Char) : Option (Nat × List Char) := do
  let body ← dropHexPrefix text
  let digits := body.takeWhile (· != separator)
  match digits, body.drop digits.length with
  | _ :: _, _ :: rest => (tryParseHex digits).map fun value => (value, rest)
  | _, _ => none

def hexComponents : List Char → List Char → Option (List Nat × List Char)
  | [], text => some ([], text)
  | separator :: separators, text => do
    let (value, rest) ← hexComponent separator text
    let (values, rest) ← hexComponents separators rest
    some (value :: values, rest)

def expect (c : Char) : List Char → Option (List Char)
  | head :: rest => if head = c then some rest else none
  | [] => none

def tryParseExactX (text : List Char) : Option Guid := do
  let text ← expect '{' (text.filter (!isWhiteSpace ·))
  let (header, text) ← hexComponents [',', ',', ','] text
  let text ← expect '{' text
  let (bytes, text) ← hexComponents [',', ',', ',', ',', ',', ',', ',', '}'] text
  if text = ['}'] ∧ ∀ byte ∈ bytes, byte ≤ 255 then
    some (assemble (header.zip [32, 16, 16] ++ bytes.map (·, 8)))
  else none

def tryParseGuid (text : List Char) : Option Guid :=
  let text := trim text
  if text.length < 32 then none
  else if text[0]? = some '(' then tryParseExactP text
  else if text[0]? = some '{' then
    if text[9]? = some '-' then tryParseExactB text else tryParseExactX text
  else if text[8]? = some '-' then tryParseExactD text
  else tryParseExactN text

def parse : Option String → Except Exception Guid
  | none => .error .argumentNullException
  | some text => match tryParseGuid text.toList with
    | some guid => .ok guid
    | none => .error .formatException

def hexChar (digit : Nat) : Char := Char.ofNat (if digit < 10 then 48 + digit else 87 + digit)

def hexText (guid : Guid) : List Char :=
  (List.range 32).map fun place => hexChar (guid.toNat / 16 ^ (31 - place) % 16)

def toString (guid : Guid) : String :=
  let digits := guid.hexText
  String.ofList (slice digits 0 8 ++ '-' :: slice digits 8 4 ++ '-' :: slice digits 12 4 ++
    '-' :: slice digits 16 4 ++ '-' :: slice digits 20 12)

end Guid

example : Guid.parse (some " d85b1407-351d-4694-9392-03ACC5870EB1 ") = .ok 0xd85b1407351d4694939203acc5870eb1 := by
  decide +kernel

example : Guid.parse (some "\x7b0x1,0x20002,0x+0x3,\x7b0x1,0x2,0x3,0x4,0x5,0x6,0x7, 0x8\x7d\x7d") =
    .ok 0x00000001000200030102030405060708 := by
  decide +kernel

end Yoomoney
