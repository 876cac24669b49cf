import BoundSql.Dialect
import BoundSql.Insert.Stored

/-!
# Insert plans

An `InsertPlan` is what an `INSERT` needs besides the table: columns, placeholders and values in the
same order.

* `InsertPlan.single` is the plan of one row;
* `InsertPlan.bulk` is the plan of many rows. Its columns are those of all rows in the order of
  their first appearance; every row gets one tuple over all of them, with nothing bound where the
  row has no such column, unless rows must be complete.
-/

namespace BoundSql

/-- What an `INSERT` needs besides the table. -/
structure InsertPlan where
  columns : List String
  columnList : String
  placeholders : String
  values : List Value

namespace InsertPlan

/-- Columns as a list in SQL. -/
def columnText (columns : List String) : String := ",".intercalate (columns.map Ident.quote)

/-- The placeholders of the `count` parameters after the first `offset`, as a list in SQL. -/
def placeholderText (d : Dialect) (offset : Int) (count : Nat) : String :=
  ",".intercalate ((List.range count).map fun (i : Nat) => d.placeholder (offset + (i + 1)))

/-- The plan of a stored row. -/
def ofStored (d : Dialect) (offset : Int) (row : StoredRow) : InsertPlan :=
  let columns := row.map (·.1)
  ⟨columns, columnText columns, placeholderText d offset columns.length, row.map (·.2)⟩

/-- The plan of one row. -/
def single (d : Dialect) (offset : Int) (arrays : List String) (row : Value) :
    Except Error InsertPlan :=
  (storedRow arrays row).map (ofStored d offset)

/-! ### Many rows -/

/-- The stored rows of values, up to the first that is none. -/
def storedRows (arrays : List String) : List Value → Except Error (List StoredRow)
  | [] => .ok []
  | row :: rows =>
    match storedRow arrays row with
    | .error e => .error e
    | .ok stored => (storedRows arrays rows).map (stored :: ·)

/-- Adds columns that are not there yet, in order. -/
def addColumns (columns : List String) : List String → List String
  | [] => columns
  | c :: cs => addColumns (if columns.contains c then columns else columns ++ [c]) cs

/-- The columns of all rows, in the order of their first appearance. -/
def sharedColumns (rows : List StoredRow) : List String :=
  rows.foldl (fun columns row => addColumns columns (row.map (·.1))) []

/-- The columns a row does not have. -/
def missingColumns (columns : List String) (row : StoredRow) : List String :=
  columns.filter fun c => !(row.map (·.1)).contains c

/-- What a row binds for a column. -/
def valueAt (row : StoredRow) (column : String) : Value := (row.lookup column).getD .null

/-- The first row that lacks a column, with the columns it lacks; `index` is the position of the
first of the rows. -/
def firstIncomplete (columns : List String) (index : Nat) :
    List StoredRow → Option (Nat × List String)
  | [] => none
  | row :: rows =>
    let missing := missingColumns columns row
    if missing.isEmpty then firstIncomplete columns (index + 1) rows else some (index, missing)

/-- The tuples of placeholders of so many rows over so many columns. -/
def tuples (d : Dialect) (offset : Int) (width : Nat) : Nat → List String
  | 0 => []
  | rows + 1 =>
    ("(" ++ placeholderText d offset width ++ ")") :: tuples d (offset + width) width rows

/-- The plan of stored rows over the columns of all of them. -/
def ofStoredRows (d : Dialect) (offset : Int) (rows : List StoredRow) : InsertPlan :=
  let columns := sharedColumns rows
  ⟨columns, columnText columns, ",".intercalate (tuples d offset columns.length rows.length),
    rows.flatMap fun row => columns.map (valueAt row)⟩

/-- The plan of many rows; `fill` says whether rows may lack columns. -/
def bulk (d : Dialect) (offset : Int) (arrays : List String) (fill : Bool) (rows : Value) :
    Except Error InsertPlan :=
  match rows.items? with
  | none => .error (.misuse (.notIterable rows.qualifiedTypeName))
  | some items =>
    match storedRows arrays items with
    | .error e => .error e
    | .ok stored =>
      match fill, firstIncomplete (sharedColumns stored) 0 stored with
      | false, some (index, missing) => .error (.build (.insertShape index missing))
      | _, _ => .ok (ofStoredRows d offset stored)

end InsertPlan

end BoundSql
