import BoundSql.Text.Blank
import BoundSql.Text.Numeral

/-!
# Whole numbers as typed

A whole number in its plain form is an optional minus and digits without zeros in front. A person
types more than that: white space around the number, a plus, zeros in front, underscores between the
digits, a point with zeros behind it. `readTyped` takes the plain form as it stands and otherwise
takes off what was added.

Zeros in front are taken off together with the underscores among them, and a number may start with a
minus of its own behind them. A plain number with too many digits is told apart from a text that is
no number.
-/

namespace BoundSql.Text

/-- What a typed whole number comes to. -/
inductive Typed where
  | number (n : Int)
  | unreadable
  | tooLong
deriving DecidableEq

/-- The most digits a number may have. -/
def digitLimit : Nat := 4300

/-- A minus in front of a text, if there is one, and the rest. -/
def takeMinus : List Char → List Char × List Char
  | '-' :: cs => (['-'], cs)
  | cs => ([], cs)

/-- A whole number in its plain form. -/
def plainInteger? (cs : List Char) : Option Int :=
  let (minus, body) := takeMinus cs
  match takeDigits body with
  | (d :: ds, []) =>
    if d = zeroDigit ∧ ds ≠ [] then none
    else if minus = [] then some (ofDigits (d :: ds)) else some (-(ofDigits (d :: ds) : Int))
  | _ => none

/-- Whether a text starts like a plain number, but with too many characters to read. -/
def startsTooLong (cs : List Char) : Bool :=
  let (minus, body) := takeMinus cs
  match takeDigits body with
  | (d :: ds, _) => d ≠ zeroDigit && digitLimit < minus.length + (d :: ds).length
  | _ => false

/-- The rest of a number behind the zeros in front and the underscores among them, `last` being the
last of those. -/
def behindZeros (last : Char) : List Char → Option (List Char)
  | [] => some [last]
  | c :: cs =>
    if c = '0' || c = '_' then behindZeros c cs
    else if c = '-' || ('1' ≤ c && c ≤ '9') then some (c :: cs)
    else if c = '.' then some (last :: c :: cs)
    else none

/-- A number without zeros in front; it has to start with a digit. -/
def withoutZeros? : List Char → Option (List Char)
  | [] => none
  | c :: cs =>
    if c = '0' then behindZeros c cs
    else if '1' ≤ c && c ≤ '9' then some (c :: cs)
    else none

/-- A number without a point that only zeros stand behind. -/
def withoutPoint (cs : List Char) : List Char :=
  let (whole, rest) := cs.span (· ≠ '.')
  match rest with
  | _ :: z :: zs => if (z :: zs).all (· = '0') then whole else cs
  | _ => cs

/-- Whether underscores stand only between other characters, and one at a time. -/
def underscoresApart : List Char → Bool
  | [] => true
  | ['_'] => false
  | '_' :: '_' :: _ => false
  | _ :: cs => underscoresApart cs

/-- A number without the underscores that group its digits. -/
def withoutUnderscores (cs : List Char) : List Char :=
  if cs.head? ≠ some '_' && underscoresApart cs then cs.filter (· ≠ '_') else cs

/-- A plus in front of a number; no minus may follow it. -/
def withoutPlus? : List Char → Option (List Char)
  | '+' :: '-' :: _ => none
  | '+' :: cs => some cs
  | cs => some cs

/-- The plain form of a typed number, if it has one. -/
def plainForm? (cs : List Char) : Option (List Char) :=
  match withoutPlus? (trim isWhiteSpace cs) with
  | none => none
  | some cs =>
    let (minus, body) := takeMinus cs
    (withoutZeros? body).map fun rest => withoutUnderscores (withoutPoint (minus ++ rest))

/-- Reads a whole number as a person types it. -/
def readTyped (s : String) : Typed :=
  let cs := s.toList
  if startsTooLong cs then .tooLong
  else match plainInteger? cs with
    | some n => .number n
    | none =>
      match (plainForm? cs).filter (!startsTooLong ·) |>.bind plainInteger? with
      | some n => .number n
      | none => .unreadable

end BoundSql.Text
