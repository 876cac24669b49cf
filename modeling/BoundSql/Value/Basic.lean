import BoundSql.Value.Calendar
import BoundSql.Value.DecimalText
import BoundSql.Value.FloatText

/-!
# Values

`Value` is what a caller may hand over to be stored or compared: scalars, collections, mappings,
members of enumerations, records (instances of a named model with fields in order) and the mark
`unset` for a value that was never provided. Mappings and records keep their order.

The questions asked of a value are here too: the name of its type as messages write it, the text it
holds, what iterating over it gives, and whether it counts as empty.
-/

namespace BoundSql

/-- What a member of an enumeration is besides being a member: nothing, a text or an integer.

In each of the three cases its plain text is the name of its type and its own name
(`Value.plainText`). Enumerations of texts or integers that print a member as the value it stands
for are not represented. -/
inductive MemberBase where
  | plain
  | text
  | integer
deriving DecidableEq

/-- A value of a caller's program. -/
inductive Value where
  | null
  | bool (b : Bool)
  | int (n : Int)
  | float (f : FloatText)
  | text (s : String)
  | bytes (bs : List UInt8)
  | decimal (digits : String)
  | datetime (d : Date) (t : Clock)
  | date (d : Date)
  | time (t : Clock)
  | duration (d : Duration)
  | uuid (digits : String)
  | list (xs : List Value)
  | tuple (xs : List Value)
  | set (xs : List Value)
  | frozenset (xs : List Value)
  | map (entries : List (Value × Value))
  | unset
  | member (type : String) (base : MemberBase) (name : String) (value : Value)
  | record (type : String) (fields : List (String × Value))
deriving Inhabited

/-- The entries of a mapping in order. -/
abbrev Entries := List (Value × Value)

namespace Value

mutual

/-- Whether two values are of one kind and the same in every part. -/
protected def beq : Value → Value → Bool
  | null, b => match b with | null => true | _ => false
  | bool x, b => match b with | bool y => x == y | _ => false
  | int x, b => match b with | int y => x == y | _ => false
  | float x, b => match b with | float y => x == y | _ => false
  | text x, b => match b with | text y => x == y | _ => false
  | bytes x, b => match b with | bytes y => x == y | _ => false
  | decimal x, b => match b with | decimal y => x == y | _ => false
  | datetime x t, b => match b with | datetime y u => x == y && t == u | _ => false
  | date x, b => match b with | date y => x == y | _ => false
  | time x, b => match b with | time y => x == y | _ => false
  | duration x, b => match b with | duration y => x == y | _ => false
  | uuid x, b => match b with | uuid y => x == y | _ => false
  | list xs, b => match b with | list ys => beqItems xs ys | _ => false
  | tuple xs, b => match b with | tuple ys => beqItems xs ys | _ => false
  | set xs, b => match b with | set ys => beqItems xs ys | _ => false
  | frozenset xs, b => match b with | frozenset ys => beqItems xs ys | _ => false
  | map es, b => match b with | map fs => beqEntries es fs | _ => false
  | unset, b => match b with | unset => true | _ => false
  | member type base name value, b => match b with
    | member type' base' name' value' =>
      type == type' && base == base' && name == name' && value.beq value'
    | _ => false
  | record type fields, b => match b with
    | record type' fields' => type == type' && beqFields fields fields'
    | _ => false
termination_by structural a => a

/-- Whether items are the same one by one. -/
def beqItems : List Value → List Value → Bool
  | [], ys => ys.isEmpty
  | x :: xs, ys => match ys with
    | [] => false
    | y :: ys => x.beq y && beqItems xs ys
termination_by structural a => a

/-- Whether entries are the same one by one. -/
def beqEntries : List (Value × Value) → List (Value × Value) → Bool
  | [], fs => fs.isEmpty
  | (k, v) :: es, fs => match fs with
    | [] => false
    | (k', v') :: fs => k.beq k' && v.beq v' && beqEntries es fs
termination_by structural a => a

/-- Whether fields are the same one by one. -/
def beqFields : List (String × Value) → List (String × Value) → Bool
  | [], gs => gs.isEmpty
  | (name, v) :: fs, gs => match gs with
    | [] => false
    | (name', v') :: gs => name == name' && v.beq v' && beqFields fs gs
termination_by structural a => a

end

instance : BEq Value := ⟨Value.beq⟩

/-- The plain name of a value's type. -/
def typeName : Value → String
  | null => "NoneType"
  | bool _ => "bool"
  | int _ => "int"
  | float _ => "float"
  | text _ => "str"
  | bytes _ => "bytes"
  | decimal _ => "Decimal"
  | datetime _ _ => "datetime"
  | date _ => "date"
  | time _ => "time"
  | duration _ => "timedelta"
  | uuid _ => "UUID"
  | list _ => "list"
  | tuple _ => "tuple"
  | set _ => "set"
  | frozenset _ => "frozenset"
  | map _ => "dict"
  | unset => "_Unset"
  | member type _ _ _ => type
  | record type _ => type

/-- The name of a value's type with the library it belongs to, where messages give that. -/
def qualifiedTypeName : Value → String
  | decimal _ => "decimal.Decimal"
  | datetime _ _ => "datetime.datetime"
  | date _ => "datetime.date"
  | time _ => "datetime.time"
  | duration _ => "datetime.timedelta"
  | v => v.typeName

/-- The text a value is, if it is one; a member built on text is its text. -/
def asText? : Value → Option String
  | text s => some s
  | member _ .text _ (text s) => some s
  | _ => none

/-- Whether a value, as the key of an entry, is the given name. -/
def isKey (name : String) (key : Value) : Bool := key.asText? == some name

/-- The integer a value is, if it is one; truth values count as 1 and 0. -/
def asInt? : Value → Option Int
  | int n => some n
  | bool b => some (if b then 1 else 0)
  | member _ .integer _ (int n) => some n
  | _ => none

/-- What iterating over a value gives: the items of a collection, the keys of a mapping, the
characters of a text, the numbers of a byte string, the fields of a record. -/
def items? : Value → Option (List Value)
  | list xs | tuple xs | set xs | frozenset xs => some xs
  | map entries => some (entries.map (·.1))
  | bytes bs => some (bs.map fun b => int b.toNat)
  | record _ fields => some (fields.map fun f => tuple [text f.1, f.2])
  | v => v.asText?.map fun s => s.toList.map fun c => text (String.singleton c)

/-- Whether a value counts as empty or as nothing. -/
def isEmpty : Value → Bool
  | null | unset => true
  | bool b => !b
  | int n => n == 0
  | float f => f.amount.isZero
  | text s => s.isEmpty
  | bytes bs => bs.isEmpty
  | decimal digits => (DecimalText.amount digits).isZero
  | duration d => d.totalMicros == 0
  | list xs | tuple xs | set xs | frozenset xs => xs.isEmpty
  | map entries => entries.isEmpty
  | member _ .text _ (text s) => s.isEmpty
  | member _ .integer _ (int n) => n == 0
  | _ => false

/-- What a number of any kind amounts to. -/
def amount? : Value → Option Amount
  | float f => some f.amount
  | decimal digits => some (DecimalText.amount digits)
  | v => v.asInt?.map Amount.ofInt

/-- The value at a name in the entries of a mapping. -/
def lookup (name : String) : Entries → Option Value
  | [] => none
  | (k, v) :: rest => if k.isKey name then some v else lookup name rest

end Value

end BoundSql
