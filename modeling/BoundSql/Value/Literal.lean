import BoundSql.Text.Hex
import BoundSql.Text.Printable
import BoundSql.Value.Basic

/-!
# The two texts of a value

`Value.literal` writes a value as source text: quotes around texts, the type's name around calendar
values and records, members as `<Type.NAME: value>`. `Value.text` is the plain text: a text is
itself, calendar values are ISO texts, and a collection is its literal.

Quoting takes single quotes unless the text holds a single quote and no double quote; the chosen
quote and the backslash are escaped, and so is everything without a graphic shape.
-/

namespace BoundSql

open Text

namespace Literal

/-- The quote to put around characters of a text. -/
def quoteFor (cs : List Char) : Char :=
  if cs.contains '\'' && !cs.contains '"' then '"' else '\''

/-- A code point as an escape with as many hexadecimal digits as it needs: two, four or eight. -/
def codeEscape (n : Nat) : List Char :=
  if n < 0x100 then '\\' :: 'x' :: hexDigits 2 n
  else if n < 0x10000 then '\\' :: 'u' :: hexDigits 4 n
  else '\\' :: 'U' :: hexDigits 8 n

/-- A character between quotes `q`. -/
def escapeChar (q c : Char) : List Char :=
  if c = q || c = '\\' then ['\\', c]
  else if c = '\t' then ['\\', 't']
  else if c = '\n' then ['\\', 'n']
  else if c = '\r' then ['\\', 'r']
  else if isPrintable c then [c]
  else codeEscape c.toNat

/-- A text between quotes. -/
def quoted (s : String) : String :=
  let q := quoteFor s.toList
  String.ofList (q :: (s.toList.flatMap (escapeChar q) ++ [q]))

/-- A byte between quotes `q`; only ASCII stands for itself. -/
def escapeByte (q : Char) (b : UInt8) : List Char :=
  if b.toNat < 127 then escapeChar q (Char.ofNat b.toNat) else codeEscape b.toNat

/-- A byte string between quotes, marked with `b`. -/
def quotedBytes (bs : List UInt8) : String :=
  let q := quoteFor (bs.map fun b => Char.ofNat b.toNat)
  String.ofList ('b' :: q :: (bs.flatMap (escapeByte q) ++ [q]))

/-- Arguments between parentheses behind a name. -/
def applied (name : String) (arguments : List String) : String :=
  name ++ "(" ++ ", ".intercalate arguments ++ ")"

/-- The literal of a duration names its parts and leaves out the zeros. -/
def duration (d : Duration) : String :=
  let parts :=
    (if d.days = 0 then [] else ["days=" ++ toString d.days]) ++
    (if d.seconds = 0 then [] else ["seconds=" ++ toString d.seconds]) ++
    (if d.micros = 0 then [] else ["microseconds=" ++ toString d.micros])
  applied "datetime.timedelta" (if parts.isEmpty then ["0"] else parts)

/-- The arguments of a time of day: seconds and microseconds only as far as needed, then the zone.
-/
def clockArguments (t : Clock) : List String :=
  let digits :=
    if t.micros ≠ 0 then [t.hour, t.minute, t.second, t.micros]
    else if t.second ≠ 0 then [t.hour, t.minute, t.second]
    else [t.hour, t.minute]
  let zone := match t.offset with
    | none => []
    | some 0 => ["tzinfo=datetime.timezone.utc"]
    | some o => ["tzinfo=" ++ applied "datetime.timezone" [duration (Duration.ofMicros o)]]
  digits.map toString ++ zone

/-- The arguments of a date. -/
def dateArguments (d : Date) : List String := [d.year, d.month, d.day].map toString

/-- Items between brackets; a one-item tuple keeps a comma. -/
def bracketed (opening closing : String) (items : List String) : String :=
  opening ++ ", ".intercalate items ++ closing

end Literal

open Literal

namespace Value

mutual

/-- A value as source text. -/
def literal : Value → String
  | null => "None"
  | bool b => if b then "True" else "False"
  | int n => toString n
  | float f => f.text
  | text s => quoted s
  | bytes bs => quotedBytes bs
  | decimal digits => applied "Decimal" [quoted digits]
  | datetime d t => applied "datetime.datetime" (dateArguments d ++ clockArguments t)
  | date d => applied "datetime.date" (dateArguments d)
  | time t => applied "datetime.time" (clockArguments t)
  | duration d => Literal.duration d
  | uuid digits => applied "UUID" [quoted digits]
  | list xs => bracketed "[" "]" (literals xs)
  | tuple [x] => bracketed "(" ",)" [literal x]
  | tuple xs => bracketed "(" ")" (literals xs)
  | set [] => applied "set" []
  | set xs => bracketed "\x7b" "\x7d" (literals xs)
  | frozenset [] => applied "frozenset" []
  | frozenset xs => applied "frozenset" [bracketed "\x7b" "\x7d" (literals xs)]
  | map entries => bracketed "\x7b" "\x7d" (entryLiterals entries)
  | unset => "UNSET"
  | member type _ name value => "<" ++ type ++ "." ++ name ++ ": " ++ literal value ++ ">"
  | record type fields => applied type (fieldLiterals fields)

/-- The literals of items. -/
def literals : List Value → List String
  | [] => []
  | x :: xs => literal x :: literals xs

/-- The literals of entries, key and value divided by a colon. -/
def entryLiterals : Entries → List String
  | [] => []
  | (k, v) :: rest => (literal k ++ ": " ++ literal v) :: entryLiterals rest

/-- The fields of a record with their literals. -/
def fieldLiterals : List (String × Value) → List String
  | [] => []
  | (name, v) :: rest => (name ++ "=" ++ literal v) :: fieldLiterals rest

end

/-- A value as plain text. A member is the name of its type and its own name, also if it is a text
or an integer besides; there are no members here that are printed as their value (`MemberBase`). -/
def plainText : Value → String
  | text s => s
  | decimal digits => digits
  | datetime d t => d.iso ++ " " ++ t.iso
  | date d => d.iso
  | time t => t.iso
  | duration d => d.text
  | uuid digits => digits
  | member type _ name _ => type ++ "." ++ name
  | record _ fields => " ".intercalate (fieldLiterals fields)
  | v => literal v

/-- The value of a member built on texts is its plain text, that of a member built on integers a
plain integer. -/
def memberValue (base : MemberBase) (v : Value) : Value :=
  match base with
  | .plain => v
  | .text => text v.plainText
  | .integer => match v.asInt?, v.asText?.bind fun s => integer? s.toList with
    | some n, _ => int n
    | none, some n => int n
    | none, none => v

end Value

end BoundSql
