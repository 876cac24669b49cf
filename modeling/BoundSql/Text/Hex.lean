/-!
# Hexadecimal digits

Bytes and identifiers are written with hexadecimal digits, two for a byte.
-/

namespace BoundSql.Text

/-- The value of a hexadecimal digit. -/
def hexDigit? (c : Char) : Option Nat :=
  let n := c.toNat
  if 48 ≤ n ∧ n ≤ 57 then some (n - 48)
  else if 97 ≤ n ∧ n ≤ 102 then some (n - 87)
  else if 65 ≤ n ∧ n ≤ 70 then some (n - 55)
  else none

/-- The lower case hexadecimal digit of a number below sixteen. -/
def hexChar (n : Nat) : Char := if n < 10 then Char.ofNat (48 + n) else Char.ofNat (87 + n)

/-- The last `width` hexadecimal digits of a number. -/
def hexDigits : Nat → Nat → List Char
  | 0, _ => []
  | width + 1, n => hexDigits width (n / 16) ++ [hexChar (n % 16)]

/-- Bytes written as pairs of hexadecimal digits. -/
def hexBytes? : List Char → Option (List UInt8)
  | [] => some []
  | a :: b :: cs => match hexDigit? a, hexDigit? b, hexBytes? cs with
    | some x, some y, some bs => some (UInt8.ofNat (16 * x + y) :: bs)
    | _, _, _ => none
  | _ => none

/-- Bytes as pairs of lower case hexadecimal digits. -/
def hexText (bs : List UInt8) : String := String.ofList (bs.flatMap fun b => hexDigits 2 b.toNat)

/-- The text of an identifier of thirty-two hexadecimal digits: in groups of eight, four, four, four
and twelve, divided by hyphens. -/
def groupedHex (cs : List Char) : String :=
  let part (start size : Nat) : String := String.ofList ((cs.drop start).take size)
  "-".intercalate [part 0 8, part 8 4, part 12 4, part 16 4, part 20 12]

/-- Reads an identifier of thirty-two hexadecimal digits in any case; hyphens may stand anywhere,
and braces around the whole. -/
def identifier? (s : String) : Option String :=
  let cs := s.toList.filter fun c => c ≠ '-' && c ≠ '\x7b' && c ≠ '\x7d'
  let digits := cs.filterMap hexDigit?
  if digits.length = cs.length ∧ cs.length = 32 then some (groupedHex (digits.map hexChar))
  else none

end BoundSql.Text
