import BoundSql.Value.Key

/-!
# Dialects

A `Dialect` is what has to be known of a store to write SQL for it: how the driver wants
placeholders written, which operator matches patterns, and whether a value can be compared with the
elements of an array column. Two stores are known by name.
-/

namespace BoundSql

/-- How a driver wants positional placeholders written. -/
inductive PlaceholderStyle where
  /-- A dollar sign and the number of the parameter. -/
  | dollar
  /-- A colon and the number of the parameter. -/
  | colon
  /-- A question mark. -/
  | question
  /-- A percent sign and the letter `s`; other percent signs are doubled. -/
  | percent
deriving DecidableEq

namespace PlaceholderStyle

/-- The name of a style. -/
def name : PlaceholderStyle → String
  | dollar => "numeric_dollar"
  | colon => "numeric"
  | question => "qmark"
  | percent => "format"

/-- The style of a name; `pyformat` drivers take positional percent placeholders too. -/
def ofName? (name : String) : Option PlaceholderStyle :=
  if name = "pyformat" then some percent
  else [dollar, colon, question, percent].find? (·.name == name)

/-- Whether placeholders carry the number of their parameter. -/
def isNumbered : PlaceholderStyle → Bool
  | dollar | colon => true
  | question | percent => false

/-- The placeholder of the parameter with the given number. -/
def placeholder (style : PlaceholderStyle) (index : Int) : String :=
  match style with
  | dollar => "$" ++ toString index
  | colon => ":" ++ toString index
  | question => "?"
  | percent => "%s"

/-- The text of one literal percent sign in a statement. -/
def percentSign : PlaceholderStyle → String
  | percent => "%%"
  | _ => "%"

/-- Reads a style as drivers give it. -/
def ofValue (v : Value) : Except BuildError PlaceholderStyle :=
  match v.asText?.bind ofName? with
  | some style => .ok style
  | none => .error (.unsupportedParamstyle v.plainText)

end PlaceholderStyle

/-- What has to be known of a store. -/
structure Dialect where
  name : String
  style : PlaceholderStyle := .dollar
  patternOperator : String := "LIKE"
  hasMembership : Bool := false
deriving DecidableEq

namespace Dialect

/-- Numbered placeholders, patterns that ignore case, array columns. -/
def postgres : Dialect := ⟨"postgresql", .dollar, "ILIKE", true⟩

/-- Question marks, plain patterns, no array columns. -/
def sqlite : Dialect := ⟨"sqlite", .question, "LIKE", false⟩

/-- The stores known by name. -/
def known : List Dialect := [postgres, sqlite]

/-- The store of a name. -/
def find? (name : String) : Option Dialect := known.find? (·.name == name)

/-- The placeholder of the parameter with the given number. -/
def placeholder (d : Dialect) (index : Int) : String := d.style.placeholder index

/-- The comparison that a column contains the text of a parameter. -/
def patternMatch (d : Dialect) (column placeholder : String) : String :=
  let wildcard := "'" ++ d.style.percentSign ++ "'"
  column ++ " " ++ d.patternOperator ++ " " ++ wildcard ++ " || " ++ placeholder ++ " || " ++
    wildcard

/-- The comparison of a parameter with the elements of an array column. -/
def membership (placeholder column : String) (negate : Bool) : String :=
  placeholder ++ (if negate then " != " else " = ") ++ "ANY(" ++ column ++ ")"

/-- The names of the known stores. -/
def knownNames : List String := known.map (·.name)

/-- The store of a name, with another placeholder style unless none is given. -/
def resolve (name style : Value) : Except Error Dialect :=
  match name.keyFault? with
  | some m => .error (.misuse m)
  | none =>
    match name.asText?.bind find? with
    | none => .error (.build (.unsupportedDialect name.plainText knownNames))
    | some d => match style with
      | .null => .ok d
      | v =>
        ((PlaceholderStyle.ofValue v).map fun s => { d with style := s }).mapError .build

end Dialect

end BoundSql
