import BoundSql.Operator

/-!
# Filter trees

A filter is a list of sibling nodes. A node is a `Leaf`, one comparison of a field with a value, or
a group of further siblings; each may say how it is joined to the node before it. The operator of a
leaf is any tag: whether it is a known one shows when the tree is rendered.

A `Selection` is a filter with an order, a limit, an offset and a text to search for.
-/

namespace BoundSql

/-- One comparison of a field with a value. -/
structure Leaf where
  field : String
  operator : String
  value : Value
  joiner : Option Joiner

/-- A comparison or a group of siblings. -/
inductive Node where
  | leaf (l : Leaf)
  | group (children : List Node) (joiner : Option Joiner)

namespace Node

/-- How a node is joined to the one before it. -/
def joiner : Node → Option Joiner
  | leaf l => l.joiner
  | group _ j => j

/-- The leaf that compares a field for equality, joined by `AND` unless it is the first. -/
def equals (first : Bool) (field : String) (value : Value) : Node :=
  leaf ⟨field, Operator.eq.tag, value, if first then none else some .and⟩

end Node

/-- The column to sort by and the direction. -/
structure SortKey where
  key : String
  direction : Direction

/-- A whole number that is not negative, kept as the value that was given for it: a truth value and
a member built on an integer stay what they are. -/
structure Count where
  value : Value
  size : Nat
  size_eq : value.asInt? = some (size : Int)

/-- The count of a plain number. -/
def Count.ofNat (n : Nat) : Count := ⟨.int n, n, rfl⟩

/-- The count a value is, if it is one. -/
def Count.ofValue? (v : Value) : Option Count :=
  match h : v.asInt? with
  | some (.ofNat n) => some ⟨v, n, h⟩
  | _ => none

/-- A filter with the shape of the result wanted. -/
structure Selection where
  filters : Option (List Node)
  sort : Option SortKey
  limit : Option Count
  offset : Option Count
  freeText : Option String

namespace Selection

/-- The selection of everything. -/
def everything : Selection := ⟨none, none, none, none, none⟩

/-- The selection by a filter alone. -/
def ofNodes (nodes : List Node) : Selection := { everything with filters := some nodes }

/-- The nodes of the filter. -/
def nodes (s : Selection) : List Node := s.filters.getD []

end Selection

end BoundSql
