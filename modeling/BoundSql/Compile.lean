import BoundSql.Clause
import BoundSql.Filter.Read
import BoundSql.Value.Key

/-!
# Compiling selections

A `Compiler` turns a selection into the parts of a statement: a `WHERE` clause with the values of
its placeholders, an `ORDER BY` clause, a limit and an offset.

* `Compiler.select` compiles a checked selection;
* `Compiler.selectRaw` reads and checks raw data first;
* `Compiler.filter` compiles a filter given as a mapping or a list of nodes.
-/

namespace BoundSql

/-- The parts of a statement that a selection is compiled to. -/
structure Compiled where
  limit : Value
  offset : Value
  sortClause : String
  whereClause : String
  values : List Value

/-- The limit of a selection without one. -/
def standardLimit : Int := 1000

/-- What does not change between the selections to compile. -/
structure Compiler where
  dialect : Dialect := .postgres
  strict : Bool := false
  aliases : Aliases := []
  limit : Int := standardLimit

/-- What is asked of one compilation: the fields a free text is searched in, whether the keyword
`WHERE` is written, and the number of parameters bound earlier in the statement. -/
structure Compilation where
  textFields : List String := []
  keyword : Bool := true
  offset : Int := 0

namespace Selection

/-- The free text if it is there to be searched for. -/
def searchText (s : Selection) : Option String :=
  s.freeText.filter fun t => !Text.isBlankText t

/-- The leaves that search the fields for a text, joined by `OR`. -/
def searchLeaves (text : String) (first : Bool) : List String → Except Error (List Node)
  | [] => .ok []
  | field :: fields =>
    match (Check.name (.text field)).below (.key "field") with
    | .issues found => .error (.invalid ⟨.leaf, found⟩)
    | .ok field =>
      let joiner := if first then none else some Joiner.or
      (searchLeaves text false fields).map
        (.leaf ⟨field, Operator.contains.tag, .text text, joiner⟩ :: ·)

/-- The nodes of a selection with the search for its free text as the last one. -/
def effectiveNodes (s : Selection) (fields : List String) : Except Error (List Node) :=
  match s.searchText, fields with
  | none, _ => .ok s.nodes
  | some _, [] => .ok s.nodes
  | some text, _ :: _ =>
    (searchLeaves text true fields).map fun leaves =>
      s.nodes ++ [.group leaves (if s.nodes.isEmpty then none else some .and)]

end Selection

namespace Compiler

/-- The settings of the renderer. -/
def settings (c : Compiler) (offset : Int) : Clause.Settings := ⟨c.dialect, c.strict, offset⟩

/-- The clause of siblings and its values. -/
def clause (c : Compiler) (offset : Int) (nodes : List Node) :
    Report Error (String × List Value) :=
  ((c.settings offset).render (Node.flatten c.aliases nodes)).mapError ClauseError.error

/-- The `ORDER BY` clause. -/
def sortClause (c : Compiler) : Option SortKey → String
  | none => ""
  | some s => "ORDER BY " ++ (Column.resolve s.key c.aliases).sql ++ " " ++ s.direction.keyword

/-- Puts the keyword in front of a clause that is not empty. -/
def withKeyword (keyword : Bool) (clause : String) : String :=
  if keyword && !clause.isEmpty then "WHERE " ++ clause else clause

/-- A count as it was given, or another number for none; zero counts as none. -/
def countOr (other : Int) : Option Count → Value
  | none => .int other
  | some c => if c.size = 0 then .int other else c.value

/-- An offset below zero is a misuse. -/
def checkOffset (offset : Int) : Except Error Unit :=
  if offset < 0 then .error (.misuse (.negativeOffset offset)) else .ok ()

/-- Compiles a selection, the offset being good. -/
def assemble (c : Compiler) (k : Compilation) (s : Selection) : Report Error Compiled :=
  (Report.ofExcept (s.effectiveNodes k.textFields)).bind fun nodes =>
    (c.clause k.offset nodes).map fun (text, values) =>
      ⟨countOr c.limit s.limit, countOr 0 s.offset, c.sortClause s.sort,
        withKeyword k.keyword text, values⟩

/-- Compiles a selection. -/
def select (c : Compiler) (k : Compilation) (s : Selection) : Report Error Compiled :=
  (Report.ofExcept (checkOffset k.offset)).bind fun _ => c.assemble k s

end Compiler

/-! ### Raw selections -/

namespace Value

/-- The entries that a list of pairs gives, the first pair being at the given position. -/
def pairEntries (index : Nat) (acc : Entries) : List Value → Except Error Entries
  | [] => .ok acc
  | x :: xs =>
    match x.items? with
    | none => .error (.misuse (.notAPair index))
    | some [k, v] => match k.keyFault? with
      | none => pairEntries (index + 1) (insertEntry k v acc) xs
      | some m => .error (.misuse m)
    | some other => .error (.misuse (.pairLength index other.length))

/-- The entries of a mapping, or of anything that gives pairs. -/
def toEntries (v : Value) : Except Error Entries :=
  match v with
  | .map es => .ok es
  | v => match v.items? with
    | some xs => pairEntries 0 [] xs
    | none => .error (.misuse (.notIterable v.qualifiedTypeName))

end Value

namespace Selection

/-- Reads the filter among the entries of a raw selection. -/
def readFilters (strict : Bool) (es : Entries) : Report Error (Option (List Node)) :=
  match Value.lookup "filters" es with
  | none | some .null => .ok none
  | some v => (Node.readItems strict Node.rootPath v).map some

/-- Reads a raw selection: its nodes one by one, and the rest as the model wants it. -/
def read (strict : Bool) (v : Value) : Report Error Selection :=
  match ofValue? v with
  | some s => .ok s
  | none =>
    (Report.ofExcept v.toEntries).bind fun es =>
      (readFilters strict es).bind fun filters =>
        .ofExcept (((checkWith (.ok filters) es).toExcept .selection).mapError .invalid)

end Selection

namespace Compiler

/-- Reads and compiles a raw selection. -/
def selectRaw (c : Compiler) (k : Compilation) (v : Value) : Report Error Compiled :=
  (Report.ofExcept (checkOffset k.offset)).bind fun _ =>
    (Selection.read c.strict v).bind (c.assemble k)

/-- Compiles a filter given as a mapping, a list of nodes, or nothing. -/
def filter (c : Compiler) (offset : Int) (v : Value) : Report Error Compiled :=
  (Node.ofFilters c.strict v).bind fun nodes =>
    c.select { offset := offset } (.ofNodes nodes)

end Compiler

end BoundSql
