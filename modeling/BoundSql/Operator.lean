import BoundSql.Text.Case
import BoundSql.Value.Literal

/-!
# Operators, joiners and directions

The twelve operators a comparison can name, each with its tag and the form it takes in SQL: a symbol
between column and placeholder, membership in an array column, or a pattern. Tags are compared in
lower case, joiners and directions in upper case. A tag that reached a filter as bytes keeps its
case: it still names a symbol, but not a membership or a pattern.
-/

namespace BoundSql

/-- The operators of comparisons. -/
inductive Operator where
  | eq
  | ne
  | gt
  | gte
  | lt
  | lte
  | on
  | after
  | before
  | includes
  | excludes
  | contains
deriving DecidableEq

/-- The form a comparison takes in SQL. -/
inductive Operator.Form where
  | symbol (sign : String)
  | membership (negate : Bool)
  | pattern
deriving DecidableEq

namespace Operator

/-- All operators. -/
def all : List Operator :=
  [eq, ne, gt, gte, lt, lte, on, after, before, includes, excludes, contains]

/-- The tag of an operator. -/
def tag : Operator → String
  | eq => "eq"
  | ne => "ne"
  | gt => "gt"
  | gte => "gte"
  | lt => "lt"
  | lte => "lte"
  | on => "on"
  | after => "after"
  | before => "before"
  | includes => "includes"
  | excludes => "excludes"
  | contains => "contains"

/-- The operator of a tag. -/
def ofTag? (tag : String) : Option Operator := all.find? (·.tag == tag)

/-- The form of an operator in SQL. -/
def form : Operator → Form
  | gt | after => .symbol ">"
  | gte => .symbol ">="
  | lt | before => .symbol "<"
  | lte => .symbol "<="
  | eq | on => .symbol "="
  | ne => .symbol "!="
  | includes => .membership false
  | excludes => .membership true
  | contains => .pattern

/-- The symbol of an operator that is written between column and placeholder. -/
def symbol? (o : Operator) : Option String :=
  match o.form with
  | .symbol sign => some sign
  | _ => none

/-- The symbol a tag names, in whatever case it is written. -/
def symbolOf? (tag : String) : Option String := (ofTag? (Text.lower tag)).bind symbol?

/-- All tags in ascending order. -/
def sortedTags : List String := (all.map tag).mergeSort fun a b => !(b < a)

/-- The type that members naming an operator have. -/
def typeName : String := "FilterOperator"

/-- The name of the member that stands for an operator. -/
def memberName (o : Operator) : String := Text.upperLatin o.tag

/-- The member that stands for an operator. -/
def toValue (o : Operator) : Value := .member typeName .text o.memberName (.text o.tag)

/-- The tag a value stands for: that of a member naming an operator, else its text in lower case. -/
def tagOf (v : Value) : String :=
  match all.find? fun o => o.toValue == v with
  | some o => o.tag
  | none => Text.lower v.plainText

end Operator

/-- How a node is joined to the one before it. -/
inductive Joiner where
  | and
  | or
deriving DecidableEq

namespace Joiner

/-- The keyword of a joiner. -/
def keyword : Joiner → String
  | and => "AND"
  | or => "OR"

/-- The joiner of a keyword. -/
def ofKeyword? (s : String) : Option Joiner := [and, or].find? (·.keyword == s)

end Joiner

/-- The direction of a sort. -/
inductive Direction where
  | ascending
  | descending
deriving DecidableEq

namespace Direction

/-- The keyword of a direction. -/
def keyword : Direction → String
  | ascending => "ASC"
  | descending => "DESC"

/-- The direction of a keyword. -/
def ofKeyword? (s : String) : Option Direction := [ascending, descending].find? (·.keyword == s)

end Direction

end BoundSql
