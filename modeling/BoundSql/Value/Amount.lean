import BoundSql.Text.Numeral

/-!
# Amounts

What a number of any kind amounts to: a decimal number, one of the two infinities, or nothing at
all. Two numbers are the same if they amount to the same; one that amounts to nothing is the same as
no number, not even itself.
-/

namespace BoundSql

open Text

/-- What a number amounts to. -/
inductive Amount where
  | finite (x : Scaled)
  | infinite (negative : Bool)
  | undefined
deriving DecidableEq

namespace Amount

/-- The amount of a whole number. -/
def ofInt (n : Int) : Amount := .finite ⟨n, 0⟩

/-- Whether two amounts are the same. -/
def same : Amount → Amount → Bool
  | finite x, finite y => x.normal == y.normal
  | infinite a, infinite b => a == b
  | _, _ => false

/-- Whether an amount is zero. -/
def isZero : Amount → Bool
  | finite x => x.coefficient == 0
  | _ => false

end Amount

end BoundSql
