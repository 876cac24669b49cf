import BoundSql.Value.Amount

/-!
# Decimal numbers as text

A decimal number keeps all its digits, also the zeros at the end, so it is carried as its text.
`DecimalText.ofText?` reads a numeral and gives the usual text of the number: without an exponent
unless there are zeros to be written that are no digits of it, or more than five zeros behind the
point.
-/

namespace BoundSql

open Text

namespace DecimalText

/-- The text of digits with the point behind the first `point` of them, and zeros where there are
none. -/
def positional (digits : List (Fin 10)) (point : Int) : String :=
  let places := List.replicate (1 - point).toNat zeroDigit ++ digits
  let whole := places.take (max point 1).toNat
  let fraction := places.drop (max point 1).toNat
  digitsText whole ++ (if fraction.isEmpty then "" else "." ++ digitsText fraction)

/-- The exponent of a decimal number always has its sign. -/
def exponentText (e : Int) : String := (if e < 0 then "E-" else "E+") ++ toString e.natAbs

/-- The usual text of `digits * 10 ^ power`. -/
def usual (negative : Bool) (digits : List (Fin 10)) (power : Int) : String :=
  let point := power + digits.length
  (if negative then "-" else "") ++
    if power ≤ 0 ∧ -6 < point then positional digits point
    else
      let e := point - 1
      positional digits 1 ++ (if e = 0 then "" else exponentText e)

/-- The usual text of a numeral; zeros in front are no digits of the number. -/
def ofNumeral (n : Numeral) : String :=
  let x := n.scaled
  usual n.negative (digitsOf x.coefficient.natAbs) x.power

/-- The usual name of what is not finite, from its name in lower case. Digits may follow the name of
what is not a number. -/
def special? (body : List Char) : Option String :=
  let (name, rest) := body.span fun c => (digit? c).isNone
  let digits := (takeDigits rest).1
  let payload := if ofDigits digits = 0 then "" else toString (ofDigits digits)
  if digits.length ≠ rest.length then none
  else match String.ofList name with
    | "nan" => some ("NaN" ++ payload)
    | "snan" => some ("sNaN" ++ payload)
    | "inf" | "infinity" => if rest.isEmpty then some "Infinity" else none
    | _ => none

/-- Reads a decimal number and gives its usual text. -/
def ofText? (s : String) : Option String :=
  match numeral? s.toList with
  | some n => some (ofNumeral n)
  | none =>
    let (negative, body) := takeSign s.toList
    (special? (body.map Char.toLower)).map ((if negative then "-" else "") ++ ·)

/-- Whether a number is the mark of an error that was not noticed yet. -/
def isSignal (text : String) : Bool := text.toList.contains 's'

/-- The number that a usual text stands for. -/
def amount (text : String) : Amount :=
  match numeral? text.toList with
  | some n => .finite n.scaled
  | none =>
    match text with
    | "Infinity" => .infinite false
    | "-Infinity" => .infinite true
    | _ => .undefined

end DecimalText

end BoundSql
