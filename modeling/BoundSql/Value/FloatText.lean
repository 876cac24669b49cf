import BoundSql.Value.Amount
import BoundSql.Value.Binary

/-!
# Floating point numbers as text

A floating point number is carried by its usual text: the fewest decimal digits that tell it from
its neighbours, taken apart into sign, whole part, fraction and exponent. `FloatText.ofText?` reads
any decimal numeral as the nearest number; `FloatText.amount` is the number itself, which its text
need not write out in full.

`FloatText.text` is the usual form and `FloatText.json` the one JSON writers use, which differ only
for the numbers that are not finite.
-/

namespace BoundSql

open Text

/-- The decimal text of a floating point number. -/
inductive FloatText where
  | nan
  | infinity (negative : Bool)
  | finite (negative : Bool) (whole : Nat) (fraction : List (Fin 10)) (exponent : Option Int)
deriving DecidableEq

namespace FloatText

/-! ### Writing -/

/-- An exponent has a sign and at least two digits. -/
def exponentText : Option Int → String
  | none => ""
  | some e => (if e < 0 then "e-" else "e+") ++ padded 2 e.natAbs

/-- A point and the digits after it; nothing if there are none. -/
def fractionText (ds : List (Fin 10)) : String :=
  if ds.isEmpty then "" else "." ++ digitsText ds

/-- The text of a finite number. -/
def finiteText (negative : Bool) (whole : Nat) (fraction : List (Fin 10))
    (exponent : Option Int) : String :=
  (if negative then "-" else "") ++ toString whole ++ fractionText fraction ++
    exponentText exponent

/-- The usual text of a number. -/
def text : FloatText → String
  | .nan => "nan"
  | .infinity negative => if negative then "-inf" else "inf"
  | .finite negative whole fraction exponent => finiteText negative whole fraction exponent

/-- The text of a number inside JSON; the three that are not finite get names of their own. -/
def json : FloatText → String
  | .nan => "NaN"
  | .infinity negative => if negative then "-Infinity" else "Infinity"
  | .finite negative whole fraction exponent => finiteText negative whole fraction exponent

/-! ### Reading -/

/-- Lays out digits with the point behind the first `point` of them. Numbers from `0.0001` up to
`10 ^ 16` have no exponent, and at least one digit after the point. -/
def layout (negative : Bool) (digits : List (Fin 10)) (point : Int) : FloatText :=
  if -4 < point ∧ point ≤ 16 then
    let places := List.replicate (-point).toNat zeroDigit ++ digits ++
      List.replicate (point - digits.length).toNat zeroDigit
    let fraction := places.drop point.toNat
    .finite negative (ofDigits (places.take point.toNat))
      (if fraction.isEmpty then [zeroDigit] else fraction) none
  else .finite negative (ofDigits (digits.take 1)) (digits.drop 1) (some (point - 1))

/-- The text of the floating point number nearest to a decimal number. -/
def nearest (negative : Bool) (x : Scaled) : FloatText :=
  match Binary.nearest? x with
  | none => .infinity negative
  | some b =>
    if b.mantissa = 0 then .finite negative 0 [zeroDigit] none
    else
      let y := b.shortest
      let digits := digitsOf y.coefficient.natAbs
      layout negative digits (digits.length + y.power)

/-- Reads a decimal numeral, or the name of a number that is not finite in any case. -/
def ofText? (s : String) : Option FloatText :=
  let (negative, body) := takeSign s.toList
  match String.ofList (body.map Char.toLower) with
  | "nan" => some .nan
  | "inf" | "infinity" => some (.infinity negative)
  | _ => (numeral? s.toList).map fun n => nearest negative n.scaled

/-! ### The number itself -/

/-- The number that a text stands for, exactly. -/
def amount : FloatText → Amount
  | .nan => .undefined
  | .infinity negative => .infinite negative
  | .finite negative whole fraction exponent =>
    match Binary.nearest? (Numeral.scaled ⟨negative, digitsOf whole, fraction, exponent⟩) with
    | none => .infinite negative
    | some b =>
      let x := b.scaled
      .finite ⟨if negative then -x.coefficient else x.coefficient, x.power⟩

end FloatText

end BoundSql
