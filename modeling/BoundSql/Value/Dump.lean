import BoundSql.Text.Utf8
import BoundSql.Value.Json
import BoundSql.Value.Key

/-!
# Dumping records

`Value.dump` reduces a value to what JSON knows: a record becomes the mapping of its fields,
calendar values their ISO texts, decimals and identifiers their digits, byte strings the text they
encode, members their values, tuples and sets lists. Keys of mappings become texts; the entries
whose keys become the same text are merged.

What lies too many levels below the record dumped is refused.
-/

namespace BoundSql

open Text

/-- The text that bytes encode, or where they go wrong. -/
def dumpBytes (bs : List UInt8) : Except Misuse String :=
  match utf8Text? bs with
  | some s => .ok s
  | none =>
    let (position, length) := (utf8Fault? bs).getD (bs.length, 0)
    .error (.notUtf8 ((bs.drop position).headD 0).toNat position length)

namespace Value

mutual

/-- The text of a key of a dumped mapping. -/
def dumpKey : Value → Except Misuse String
  | null => .ok "None"
  | bool b => .ok (if b then "true" else "false")
  | int n => .ok (toString n)
  | float f => .ok (match f with | .finite .. => f.text | _ => "None")
  | text s => .ok s
  | bytes bs => dumpBytes bs
  | decimal digits => .ok digits
  | datetime d t => .ok (d.iso ++ "T" ++ t.zuluIso)
  | date d => .ok d.iso
  | time t => .ok t.zuluIso
  | duration d => .ok d.iso
  | uuid digits => .ok digits
  | tuple xs => (dumpKeys xs).map ",".intercalate
  | member _ _ _ value => dumpKey value
  | record type fields => match keyFault? (record type fields) with
    | some m => .error m
    | none => .ok (plainText (record type fields))
  | unset => .error (.notDumpable unset.typeName)
  | v => .error (.notAnObjectKey v.typeName)

/-- The texts of the parts of a key. -/
def dumpKeys : List Value → Except Misuse (List String)
  | [] => .ok []
  | x :: xs => match dumpKey x with
    | .error e => .error e
    | .ok s => (dumpKeys xs).map (s :: ·)

end

/-- The most levels below a record. -/
def dumpLevels : Nat := 255

/-- Whether a field of a record holds a whole number and nothing else. -/
def isCountField (type name : String) : Bool :=
  type == Model.selection.title && ["limit", "offset"].contains name

mutual

/-- A value on a level below the record dumped, reduced to what JSON knows. -/
def dumpBelow (level : Nat) (v : Value) : Except Misuse Value :=
  if dumpLevels < level then .error .tooDeep
  else match v with
    | float f => .ok (match f with | .finite .. => float f | _ => null)
    | bytes bs => (dumpBytes bs).map text
    | decimal digits => .ok (text digits)
    | datetime d t => .ok (text (d.iso ++ "T" ++ t.zuluIso))
    | date d => .ok (text d.iso)
    | time t => .ok (text t.zuluIso)
    | duration d => .ok (text d.iso)
    | uuid digits => .ok (text digits)
    | list xs | tuple xs | set xs | frozenset xs => (dumpItems (level + 1) xs).map list
    | map entries => (dumpEntries (level + 1) entries).map mapOf
    | member _ _ _ value => dumpBelow (level + 1) value
    | record type fields => (dumpFields (level + 1) type fields).map map
    | unset => .error (.notDumpable unset.typeName)
    | v => .ok v

/-- Items reduced one by one. -/
def dumpItems (level : Nat) : List Value → Except Misuse (List Value)
  | [] => .ok []
  | x :: xs => match dumpBelow level x with
    | .error e => .error e
    | .ok y => (dumpItems level xs).map (y :: ·)

/-- Entries with their keys as texts. -/
def dumpEntries (level : Nat) : Entries → Except Misuse Entries
  | [] => .ok []
  | (k, v) :: rest => match dumpKey k, dumpBelow level v with
    | .error e, _ => .error e
    | _, .error e => .error e
    | .ok key, .ok y => (dumpEntries level rest).map ((text key, y) :: ·)

/-- The fields of a record as entries; a count becomes a plain number. -/
def dumpFields (level : Nat) (type : String) : List (String × Value) → Except Misuse Entries
  | [] => .ok []
  | (name, v) :: rest =>
    let dumped : Except Misuse Value := match isCountField type name, v.asInt? with
      | true, some n => .ok (int n)
      | _, _ => dumpBelow level v
    match dumped with
    | .error e => .error e
    | .ok y => (dumpFields level type rest).map ((text name, y) :: ·)

end

/-- A value reduced to what JSON knows. -/
def dump : Value → Except Misuse Value
  | record type fields => (dumpFields 1 type fields).map map
  | v => dumpBelow 1 v

end Value

end BoundSql
