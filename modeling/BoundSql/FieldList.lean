import BoundSql.Ident

/-!
# Field lists

Lists of fields for statements written by hand: `FieldList.select` for a projection and
`FieldList.pairs` for the names and columns that an object is built from. A `Template` is a
statement with such lists in it.
-/

namespace BoundSql

namespace FieldList

/-- A name that is not empty, or else the table. -/
def sourceOf (table : String) (name : Option String) : String :=
  match name with
  | some n => if n.isEmpty then table else n
  | none => table

/-- The column of a field, qualified. -/
def column (table : String) (name : Option String) (field : String) : String :=
  Ident.quote (sourceOf table name) ++ "." ++ Ident.quote (Ident.snakeCase field)

/-- A text as an SQL string. -/
def string (s : String) : String := Text.quoteWith '\'' s

/-- The columns of fields. -/
def select (table : String) (name : Option String) (fields : List String) : String :=
  ",".intercalate (fields.map (column table name))

/-- For each field its name as a string and its column. -/
def pairs (table : String) (name : Option String) (fields : List String) : String :=
  ",".intercalate (fields.flatMap fun f => [string f, column table name f])

end FieldList

/-- A part of a statement written by hand. -/
inductive Template.Part where
  | text (s : String)
  | select (table : String) (name : Option String) (fields : List String)
  | pairs (table : String) (name : Option String) (fields : List String)

/-- The text of a part. -/
def Template.Part.render : Part → String
  | text s => s
  | select table name fields => FieldList.select table name fields
  | pairs table name fields => FieldList.pairs table name fields

/-- A statement written by hand. -/
abbrev Template := List Template.Part

/-- The text of a statement. -/
def Template.render (t : Template) : String := String.join (t.map Part.render)

end BoundSql
