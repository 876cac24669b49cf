import BoundSql.Column
import BoundSql.Filter.Basic

/-!
# The flat form of a filter

A filter tree read from left to right is a list of tokens: a comparison for each leaf, with its
table already split off its path, and an opening and a closing mark around the tokens of each group.
The joiner of a group comes right before its opening mark; that of a leaf stays with the comparison.
-/

namespace BoundSql

/-- A leaf with its path split into table and field. -/
structure Comparison where
  operator : String
  field : String
  value : Value
  table : Option String
  joiner : Option Joiner

/-- The column a comparison is about. -/
def Comparison.column (c : Comparison) : Column := Column.ofField c.table c.field

/-- The comparison a leaf stands for. -/
def Leaf.comparison (aliases : Aliases) (l : Leaf) : Comparison :=
  let (table, field) := Path.split l.field aliases
  ⟨l.operator, field, l.value, table, l.joiner⟩

/-- A token of the flat form. -/
inductive Token where
  | joiner (j : Joiner)
  | opening
  | closing
  | comparison (c : Comparison)

/-- The token of a joiner, if there is one. -/
def Token.ofJoiner : Option Joiner → List Token
  | some j => [.joiner j]
  | none => []

namespace Node

mutual

/-- The tokens of a node. -/
def tokens (aliases : Aliases) : Node → List Token
  | leaf l => [.comparison (l.comparison aliases)]
  | group children j =>
    Token.ofJoiner j ++ .opening :: (flatten aliases children ++ [.closing])

/-- The tokens of siblings. -/
def flatten (aliases : Aliases) : List Node → List Token
  | [] => []
  | n :: ns => tokens aliases n ++ flatten aliases ns

end

end Node

end BoundSql
