import BoundSql.Filter.Check
import BoundSql.Report

/-!
# Reading raw filters

Raw nodes are read one by one, each with its path in the raw data. A strict reader stops at the
first malformed node; a lenient one drops it, leaves a notice and keeps its siblings. The children
of a group are read before the group itself is checked.

* `Node.readAll` reads siblings, `Node.readOne` a single node;
* `Node.ofMapping` makes a conjunction of equalities of a mapping;
* `Node.ofFilters` takes a filter in either form.
-/

namespace BoundSql

/-- A malformed node: what is wrong with it, and where it stands. -/
structure Malformed where
  text : String
  path : String
deriving DecidableEq

/-- A malformed node as an error. -/
def Malformed.error (m : Malformed) : Error := .build (.malformedFilter m.text (some m.path))

namespace Node

/-- The outcome of a check against a model as the outcome of reading a node. -/
def checked (m : Model) (path : String) (c : Checked Node) : Except Malformed Node :=
  match c with
  | .ok n => .ok n
  | .issues found =>
    let first := (found.head?.map (·.fault.message)).getD ""
    .error ⟨"invalid " ++ m.title ++ ": " ++ first, path⟩

/-- The path of an item of a list. -/
def itemPath (path : String) (index : Nat) : String := path ++ "[" ++ toString index ++ "]"

/-- The outcome of a node among its siblings: a strict reader passes an error on, a lenient one
drops the node with a notice. -/
def keepOrDrop (strict : Bool) (path : String) (item : Value) (r : Report Malformed Node) :
    Report Malformed (Option Node) :=
  match r.result with
  | .ok n => ⟨r.notices, .ok (some n)⟩
  | .error e =>
    if strict then ⟨r.notices, .error e⟩
    else ⟨r.notices ++ [.droppedNode path item], .ok none⟩

mutual

/-- Reads one node. -/
def readOne (strict : Bool) (path : String) : Value → Report Malformed Node
  | .map es =>
    match readChildren strict path es with
    | none => .ofExcept (checked .leaf path ((Leaf.check es).map leaf))
    -- The children are good by now, so what is left to check are the other entries.
    | some r => r.bind fun children =>
        .ofExcept (checked .group path (checkGroup (some (.ok children)) es))
  | v =>
    match ofValue? v with
    | some n => .ok n
    | none => .fail ⟨"expected an object, got " ++ v.typeName, path⟩

/-- Reads the children among the entries of a mapping, if there are any to be found. -/
def readChildren (strict : Bool) (path : String) : Entries → Option (Report Malformed (List Node))
  | [] => none
  | (k, v) :: rest =>
    if k.isKey "expressions" then some (readList strict path v)
    else readChildren strict path rest

/-- Reads the children of a group. -/
def readList (strict : Bool) (path : String) : Value → Report Malformed (List Node)
  | .list xs | .tuple xs => readAll strict (path ++ ".expressions") 0 xs
  | _ => .fail ⟨"'expressions' must be a list", path⟩

/-- Reads siblings, the first of them at the given position. -/
def readAll (strict : Bool) (path : String) (index : Nat) :
    List Value → Report Malformed (List Node)
  | [] => .ok []
  | x :: xs =>
    let here := itemPath path index
    (keepOrDrop strict here x (readOne strict here x)).bind fun kept =>
      (readAll strict path (index + 1) xs).map fun rest =>
        match kept with
        | some n => n :: rest
        | none => rest

end

/-- Reads siblings from any value that can be iterated over. -/
def readItems (strict : Bool) (path : String) (v : Value) : Report Error (List Node) :=
  match v.items? with
  | some xs => (readAll strict path 0 xs).mapError Malformed.error
  | none => .fail (.misuse (.notIterable v.qualifiedTypeName))

/-- Items that must all be built nodes. -/
def built : List Value → Except Error (List Node)
  | [] => .ok []
  | x :: xs =>
    match ofValue? x with
    | some n => (built xs).map (n :: ·)
    | none =>
      let text := "expected FilterLeaf or FilterGroup, got " ++ x.typeName
      .error (.build (.malformedFilter text none))

/-- Equalities for the entries of a mapping; all but the first are joined by `AND`. -/
def equalities (first : Bool) : Entries → Except Error (List Node)
  | [] => .ok []
  | (k, v) :: rest =>
    match (Check.name k).below (.key "field") with
    | .issues found => .error (.invalid ⟨.leaf, found⟩)
    | .ok field => (equalities false rest).map (equals first field v :: ·)

/-- The conjunction of equalities that a mapping stands for. -/
def ofMapping (es : Entries) : Except Error (List Node) := equalities true es

/-- Where filters are looked for. -/
def rootPath : String := "filters"

/-- Takes a filter as a mapping of fields to values, as a list of nodes, or as nothing. -/
def ofFilters (strict : Bool) (v : Value) : Report Error (List Node) :=
  match v with
  | .null => .ok []
  | .map es => .ofExcept (ofMapping es)
  | v =>
    let isText := match v with
      | .bytes _ => true
      | v => v.asText?.isSome
    if isText then
      .fail (Malformed.error
        ⟨"expected a mapping or a list of nodes, got " ++ v.typeName, rootPath⟩)
    else readItems strict rootPath v

end Node

end BoundSql
