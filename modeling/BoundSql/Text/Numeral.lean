/-!
# Numerals

Reading decimal digits, and the pieces of a decimal numeral: sign, whole digits, digits after the
point, exponent. `Numeral` keeps the pieces; its value is a `Scaled` number, a whole number times a
power of ten.
-/

namespace BoundSql.Text

/-- The digit zero. -/
def zeroDigit : Fin 10 := 0

/-- The value of a decimal digit. -/
def digit? (c : Char) : Option (Fin 10) :=
  let n := c.toNat
  if h : 48 ≤ n ∧ n ≤ 57 then some ⟨n - 48, by omega⟩ else none

/-- The digits at the start of a text, and the rest. -/
def takeDigits : List Char → List (Fin 10) × List Char
  | [] => ([], [])
  | c :: cs => match digit? c with
    | some d =>
      let (ds, rest) := takeDigits cs
      (d :: ds, rest)
    | none => ([], c :: cs)

/-- The number written by decimal digits, the most significant first. -/
def ofDigits (ds : List (Fin 10)) : Nat := ds.foldl (fun n d => 10 * n + d.val) 0

/-- The decimal digits of a number, the most significant first. -/
def digitsOf (n : Nat) : List (Fin 10) := (Nat.toDigits 10 n).filterMap digit?

/-- The character of a decimal digit. -/
def digitChar (d : Fin 10) : Char := Char.ofNat (48 + d.val)

/-- Decimal digits as text. -/
def digitsText (ds : List (Fin 10)) : String := String.ofList (ds.map digitChar)

/-- A number in decimal with zeros in front up to the given width. -/
def padded (width n : Nat) : String :=
  let s := toString n
  String.ofList (List.replicate (width - s.length) '0') ++ s

/-- A decimal numeral taken apart: sign, digits before and after the point, power of ten. -/
structure Numeral where
  negative : Bool
  whole : List (Fin 10)
  fraction : List (Fin 10)
  exponent : Option Int
deriving DecidableEq

/-- A sign in front of a text: whether it is a minus, and the rest. -/
def takeSign : List Char → Bool × List Char
  | '-' :: cs => (true, cs)
  | '+' :: cs => (false, cs)
  | cs => (false, cs)

/-- An integer with optional sign that takes up the whole text. -/
def integer? (cs : List Char) : Option Int :=
  let (negative, rest) := takeSign cs
  match takeDigits rest with
  | (d :: ds, []) =>
    let n : Int := ofDigits (d :: ds)
    some (if negative then -n else n)
  | _ => none

/-- The pieces of a numeral that takes up the whole text; `e` or `E` starts the exponent. -/
def numeral? (cs : List Char) : Option Numeral :=
  let (negative, rest) := takeSign cs
  let (whole, rest) := takeDigits rest
  let (fraction, rest) := match rest with
    | '.' :: more => takeDigits more
    | other => ([], other)
  if whole.isEmpty && fraction.isEmpty then none
  else match rest with
    | [] => some ⟨negative, whole, fraction, none⟩
    | c :: more =>
      if c = 'e' || c = 'E' then (integer? more).map fun e => ⟨negative, whole, fraction, some e⟩
      else none

/-- A decimal number: a whole number times a power of ten. -/
structure Scaled where
  coefficient : Int
  power : Int
deriving DecidableEq

/-- The form of a number in which the coefficient does not end in a zero; zero is `0 * 10 ^ 0`. Two
numbers are equal if and only if their normal forms are. -/
def Scaled.normal (x : Scaled) : Scaled :=
  if x.coefficient = 0 then ⟨0, 0⟩
  else if x.coefficient % 10 = 0 then normal ⟨x.coefficient / 10, x.power + 1⟩
  else x
termination_by x.coefficient.natAbs
decreasing_by omega

/-- The number as a whole number, if it is one. -/
def Scaled.integer? (x : Scaled) : Option Int :=
  let y := x.normal
  if 0 ≤ y.power then some (y.coefficient * Nat.pow 10 y.power.toNat) else none

/-- The value of a numeral. -/
def Numeral.scaled (n : Numeral) : Scaled :=
  let digits : Int := ofDigits (n.whole ++ n.fraction)
  ⟨if n.negative then -digits else digits, n.exponent.getD 0 - n.fraction.length⟩

end BoundSql.Text
