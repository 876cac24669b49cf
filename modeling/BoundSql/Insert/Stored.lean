import BoundSql.Ident
import BoundSql.Value.Dump

/-!
# Stored values

What is bound for a value depends on its kind and its column. Scalars are bound as they are, a
member as its value, a record as the JSON text of its dump, a collection for an array column as an
array literal, and any other structure as JSON text.

A row is a mapping of keys to values; `storedRow` gives the columns and bound values of the entries
that are set, in order. Two keys of one column are an error.
-/

namespace BoundSql

/-! ### Array literals -/

namespace ArrayLiteral

/-- Whether an element has to be quoted for a character. -/
def isSpecial (c : Char) : Bool := [',', '\x7b', '\x7d', '"', '\\', ' '].contains c

/-- A character of a quoted element. -/
def escapeChar (c : Char) : List Char := if c = '\\' || c = '"' then ['\\', c] else [c]

/-- An element with quotes around it if it needs them. -/
def elementChars (cs : List Char) : List Char :=
  if cs.isEmpty || cs.any isSpecial then '"' :: (cs.flatMap escapeChar ++ ['"']) else cs

/-- An element in an array literal. -/
def element (s : String) : String := String.ofList (elementChars s.toList)

/-- The array literal of texts. -/
def ofTexts (texts : List String) : String :=
  "\x7b" ++ ",".intercalate (texts.map element) ++ "\x7d"

/-- The array literal of items, each as its plain text. -/
def ofItems (items : List Value) : String := ofTexts (items.map Value.plainText)

end ArrayLiteral

namespace Value

/-- The items of a list, tuple or set. -/
def collected? : Value → Option (List Value)
  | list xs | tuple xs | set xs | frozenset xs => some xs
  | _ => none

/-- Whether a value is bound as it is. -/
def isScalar : Value → Bool
  | null | bool _ | int _ | float _ | text _ | bytes _ | decimal _ | datetime _ _ | date _ | time _
  | duration _ | uuid _ => true
  | _ => false

/-- The text bound for a structure. -/
def storedText (isArray : Bool) (v : Value) : Except Misuse Value :=
  match isArray, v.collected? with
  | true, some items => .ok (text (ArrayLiteral.ofItems items))
  | _, _ => v.json.map text

/-- What is bound for a value of a column. -/
def stored (arrays : List String) (column : String) (v : Value) : Except Misuse Value :=
  match v with
  | member _ _ _ value => .ok value
  | record _ _ => (v.dump.bind json).map text
  | v => if v.isScalar then .ok v else storedText (arrays.contains column) v

/-- Whether a value was provided. -/
def isSet : Value → Bool
  | unset => false
  | _ => true

end Value

/-- The columns of a row with their bound values. -/
abbrev StoredRow := List (String × Value)

/-- The earlier key of a column, among the columns seen so far with their keys. -/
def earlierKey (column : String) (seen : List (String × RowKey)) : Option RowKey :=
  (seen.find? (·.1 == column)).map (·.2)

/-- Why a key that is no text cannot name a column. -/
def Misuse.ofKey : Value → Misuse
  | .bytes _ => .keyBytes
  | k => .keyNotText k.qualifiedTypeName

/-- Columns and bound values of the entries that are set, where `seen` holds the columns that
earlier entries took, each with its key. -/
def storedEntries (arrays : List String) (seen : List (String × RowKey)) :
    Entries → Except Error StoredRow
  | [] => .ok []
  | (k, v) :: rest =>
    if v.isSet then
      match k.asText? with
      | none => .error (.misuse (.ofKey k))
      | some name =>
        let column := Ident.snakeCase name
        let key := RowKey.ofValue k
        match earlierKey column seen with
        | some earlier => .error (.build (.duplicateColumn column [earlier, key]))
        | none =>
          match v.stored arrays column with
          | .error m => .error (.misuse m)
          | .ok bound =>
            (storedEntries arrays (seen ++ [(column, key)]) rest).map ((column, bound) :: ·)
    else storedEntries arrays seen rest

/-- Columns and bound values of a row, which is a mapping with keys in any spelling. -/
def storedRow (arrays : List String) (row : Value) : Except Error StoredRow :=
  match row with
  | .map es => storedEntries arrays [] es
  | v => .error (.misuse (.noEntries v.qualifiedTypeName))

end BoundSql
