import BoundSql.Ident

/-!
# Columns and field paths

A field path names a column, optionally behind a table: `owner` or `pets.ownerName`. The first
segment of a dotted path is the table, the last one the field. A table is looked up among the
aliases first; without an alias a final `s` is dropped.

* `Path.split` takes a path apart without touching the field;
* `Column.resolve` gives the column with its name in snake case;
* `Column.sql` writes a column, qualified unless the table is missing or empty.
-/

namespace BoundSql

open Text

/-- Tables to use instead of the first segment of a path; of two for one segment the later counts.
-/
abbrev Aliases := List (String × String)

/-- The table given for a segment. -/
def Aliases.find? (aliases : Aliases) (segment : String) : Option String :=
  (aliases.reverse.find? (·.1 == segment)).map (·.2)

/-- A segment without a final `s`. -/
def singular (segment : String) : String :=
  match segment.toList.reverse with
  | 's' :: rest => String.ofList rest.reverse
  | _ => segment

namespace Path

/-- The segments of a path. -/
def segments (path : String) : List String :=
  (splitBy (· == '.') path.toList).map String.ofList

/-- The last segment. -/
def field (path : String) : String := (segments path).getLast?.getD ""

/-- The table a segment stands for. -/
def tableOf (aliases : Aliases) (segment : String) : String :=
  (aliases.find? segment).getD (singular segment)

/-- The table of a dotted path. -/
def table (aliases : Aliases) (path : String) : Option String :=
  match segments path with
  | first :: _ :: _ => some (tableOf aliases first)
  | _ => none

/-- The table and the field of a path. -/
def split (path : String) (aliases : Aliases) : Option String × String :=
  (table aliases path, field path)

end Path

/-- A column, optionally of a table. -/
structure Column where
  table : Option String
  name : String
deriving DecidableEq

namespace Column

/-- The column a field stands for. -/
def ofField (table : Option String) (field : String) : Column := ⟨table, Ident.snakeCase field⟩

/-- The column a path stands for. -/
def resolve (path : String) (aliases : Aliases) : Column :=
  ofField (Path.split path aliases).1 (Path.split path aliases).2

/-- The table a column is qualified by. -/
def qualifier (c : Column) : Option String := c.table.filter (!·.isEmpty)

/-- The column in SQL. -/
def sql (c : Column) : String :=
  match c.qualifier with
  | some t => Ident.quote t ++ "." ++ Ident.quote c.name
  | none => Ident.quote c.name

end Column

end BoundSql
