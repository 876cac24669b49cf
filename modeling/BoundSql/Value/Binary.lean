import BoundSql.Text.Numeral

/-!
# Binary fractions

The magnitudes that a floating point number of sixty-four bits can have: a whole number below `2 ^
53` times a power of two. `Binary.nearest?` rounds a decimal number to such a fraction,
`Binary.scaled` is the fraction as a decimal number, which is always exact, and `Binary.shortest` is
the number with the fewest digits that rounds to it.

All of it is done with whole numbers.
-/

namespace BoundSql

open Text

/-- A whole number times a power of two. -/
structure Binary where
  mantissa : Nat
  power : Int
deriving DecidableEq

namespace Binary

/-- A quotient rounded to the nearest whole number, a half to the even one. -/
def roundedQuotient (n d : Nat) : Nat :=
  let q := n / d
  let twice := 2 * (n % d)
  if twice < d then q else if d < twice then q + 1 else q + q % 2

/-- The largest power of two that is not above `n / d`. -/
def leadingPower (n d : Nat) : Int :=
  let guess : Int := n.log2 - d.log2
  if n * Nat.pow 2 (-guess).toNat < d * Nat.pow 2 guess.toNat then guess - 1 else guess

/-- The power of the last place of a magnitude: fifty-three places in all, down to the least power
there is. -/
def lastPlace (n d : Nat) : Int := max (leadingPower n d - 52) (-1074)

/-- The fraction nearest to `n / d`, if there is one so large. -/
def ofQuotient? (n d : Nat) : Option Binary :=
  let q := lastPlace n d
  let m := roundedQuotient (n * Nat.pow 2 (-q).toNat) (d * Nat.pow 2 q.toNat)
  let b : Binary := if m = Nat.pow 2 53 then ⟨Nat.pow 2 52, q + 1⟩ else ⟨m, q⟩
  if b.power ≤ 971 then some b else none

/-- The fraction nearest to the magnitude of a decimal number, if there is one so large. -/
def nearest? (x : Scaled) : Option Binary :=
  let n := x.coefficient.natAbs
  let point := (digitsOf n).length + x.power
  -- Far outside the range there is nothing to compute.
  if n = 0 || point < -330 then some ⟨0, -1074⟩
  else if 310 < point then none
  else ofQuotient? (n * Nat.pow 10 x.power.toNat) (Nat.pow 10 (-x.power).toNat)

/-- The fraction as a decimal number. -/
def scaled (b : Binary) : Scaled :=
  if 0 ≤ b.power then ⟨b.mantissa * Nat.pow 2 b.power.toNat, 0⟩
  else ⟨b.mantissa * Nat.pow 5 (-b.power).toNat, b.power⟩

/-- The multiples of a power of ten on either side of `n * 10 ^ power`, the nearer one first and the
even one first of two that are equally near. -/
def neighbours (n : Nat) (power grid : Int) : List Nat :=
  if grid ≤ power then [n * Nat.pow 10 (power - grid).toNat]
  else
    let d := Nat.pow 10 (grid - power).toNat
    let below := n / d
    if n % d = 0 then [below]
    else if roundedQuotient n d = below then [below, below + 1]
    else [below + 1, below]

/-- The decimal number nearest to a fraction among those with so many digits that round to it. -/
def withDigits? (b : Binary) (count : Nat) : Option Scaled :=
  let x := b.scaled
  let n := x.coefficient.natAbs
  let grid : Int := (digitsOf n).length + x.power - count
  let candidates := (neighbours n x.power grid).map fun (k : Nat) => (⟨k, grid⟩ : Scaled)
  candidates.find? fun y => nearest? y == some b

/-- The decimal number with the fewest digits that rounds to a fraction. Seventeen digits are always
enough. -/
def shortest (b : Binary) : Scaled :=
  (((List.range 17).findSome? fun k => b.withDigits? (k + 1)).getD b.scaled).normal

end Binary

end BoundSql
