import BoundSql.Filter.Basic
import BoundSql.Error

/-!
# Filters as values

Built nodes can stand among raw data. As values they are records of their model, with the fields in
the order of the model; `Node.toValue` makes such a record and `Node.ofValue?` recognises one, so
that `Node.ofValue? n.toValue = some n`.
-/

namespace BoundSql

/-- A text that may be missing, as a value. -/
def Value.ofText? : Option String → Value
  | some s => .text s
  | none => .null

/-- A count that may be missing, as a value. -/
def Value.ofCount? : Option Count → Value
  | some c => c.value
  | none => .null

namespace Joiner

/-- The member a joiner is as a value; nothing for no joiner. -/
def toValue : Option Joiner → Value
  | none => .null
  | some j => .member "ConditionType" .text j.keyword (.text j.keyword)

/-- Recognises a joiner, or nothing for no joiner. -/
def ofValue? : Value → Option (Option Joiner)
  | .null => some none
  | .member "ConditionType" .text _ (.text s) => (ofKeyword? s).map some
  | _ => none

end Joiner

namespace Direction

/-- The member a direction is as a value. -/
def toValue (d : Direction) : Value := .member "SortOrder" .text d.keyword (.text d.keyword)

/-- Recognises a direction. -/
def ofValue? : Value → Option Direction
  | .member "SortOrder" .text _ (.text s) => ofKeyword? s
  | _ => none

end Direction

namespace Leaf

/-- A leaf as a record. -/
def toValue (l : Leaf) : Value :=
  .record Model.leaf.title
    [("field", .text l.field), ("operator", .text l.operator), ("value", l.value),
      ("condition_type", Joiner.toValue l.joiner)]

/-- Recognises a leaf among the fields of a record. -/
def ofFields? : List (String × Value) → Option Leaf
  | [("field", .text field), ("operator", .text operator), ("value", value),
      ("condition_type", j)] =>
    (Joiner.ofValue? j).map fun j => ⟨field, operator, value, j⟩
  | _ => none

end Leaf

namespace Node

mutual

/-- A node as a record. -/
def toValue : Node → Value
  | leaf l => l.toValue
  | group children j =>
    .record Model.group.title
      [("expressions", .list (toValues children)), ("condition_type", Joiner.toValue j)]

/-- Nodes as records. -/
def toValues : List Node → List Value
  | [] => []
  | n :: ns => toValue n :: toValues ns

end

mutual

/-- Recognises a node. -/
def ofValue? : Value → Option Node
  | .record type fields =>
    if type = Model.leaf.title then (Leaf.ofFields? fields).map leaf
    else if type = Model.group.title then ofGroupFields? fields
    else none
  | _ => none

/-- Recognises a group among the fields of a record. -/
def ofGroupFields? : List (String × Value) → Option Node
  | [(name, .list xs), ("condition_type", j)] =>
    if name = "expressions" then
      match ofValues? xs, Joiner.ofValue? j with
      | some children, some j => some (group children j)
      | _, _ => none
    else none
  | _ => none

/-- Recognises nodes, all or none. -/
def ofValues? : List Value → Option (List Node)
  | [] => some []
  | x :: xs => match ofValue? x, ofValues? xs with
    | some n, some ns => some (n :: ns)
    | _, _ => none

end

end Node

namespace SortKey

/-- A sort as a record. -/
def toValue (s : SortKey) : Value :=
  .record Model.sort.title [("key", .text s.key), ("order", s.direction.toValue)]

/-- Recognises a sort. -/
def ofValue? : Value → Option SortKey
  | .record type [("key", .text key), ("order", d)] =>
    if type = Model.sort.title then (Direction.ofValue? d).map fun d => ⟨key, d⟩ else none
  | _ => none

end SortKey

namespace Selection

/-- A selection as a record. -/
def toValue (s : Selection) : Value :=
  .record Model.selection.title
    [("filters", (s.filters.map fun ns => Value.list (Node.toValues ns)).getD .null),
      ("sort", (s.sort.map SortKey.toValue).getD .null),
      ("limit", Value.ofCount? s.limit), ("offset", Value.ofCount? s.offset),
      ("free_text", Value.ofText? s.freeText)]

/-- Recognises nodes, or nothing for no filter. -/
def filtersOf? : Value → Option (Option (List Node))
  | .null => some none
  | .list xs => (Node.ofValues? xs).map some
  | _ => none

/-- Recognises a sort, or nothing for no order. -/
def sortOf? : Value → Option (Option SortKey)
  | .null => some none
  | v => (SortKey.ofValue? v).map some

/-- Recognises a count, or nothing for no count. -/
def countOf? : Value → Option (Option Count)
  | .null => some none
  | v => (Count.ofValue? v).map some

/-- Recognises a text, or nothing for no text. -/
def textOf? : Value → Option (Option String)
  | .null => some none
  | .text s => some (some s)
  | _ => none

/-- Recognises a selection. -/
def ofValue? : Value → Option Selection
  | .record type [("filters", f), ("sort", s), ("limit", l), ("offset", o), ("free_text", t)] =>
    if type = Model.selection.title then
      match filtersOf? f, sortOf? s, countOf? l, countOf? o, textOf? t with
      | some f, some s, some l, some o, some t => some ⟨f, s, l, o, t⟩
      | _, _, _, _, _ => none
    else none
  | _ => none

end Selection

end BoundSql
