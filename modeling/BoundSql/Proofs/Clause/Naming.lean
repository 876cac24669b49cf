import BoundSql.Proofs.Clause.Columns
import BoundSql.Proofs.Path

/-!
# Columns without a name

Of a field or an order only the path is checked, which must not be empty. The column is what is left
of it: the letters and digits of its last segment. Where there are none, the column has no name, and
the identifier of length zero is written in its place. That is the only way it comes to stand in a
clause: a table without a name is not written at all.

* `Sql.name_mem_iff` — an identifier among lexemes is that of a column or its table;
* `Compiled.Renders.zeroLength_iff`, `Compiler.zeroLength_sortClause_iff` — when there is one of
  length zero in a clause and in an order;
* `Compiler.zeroLength_of_selectRaw` — in whatever is compiled of raw data.
-/

namespace BoundSql

/-! ### Identifiers of length zero -/

/-- **An identifier among lexemes** is that of a column they name, or of its table. -/
theorem Sql.name_mem_iff {s : String} (ls : List Lexeme) :
    .name s ∈ ls ↔ ∃ c ∈ columns ls, c.table = some s ∨ c.name = s := by
  induction ls using columns.induct with
  | case1 => simp [columns]
  | case2 t c ls ih => simp [columns, ih, or_assoc, eq_comm]
  | case3 c ls hdot ih =>
    rw [columns]
    · simp [ih, eq_comm]
    · exact hdot
  | case4 l ls htable hname ih =>
    -- a lexeme that is no name is none of the names looked for
    have hl : Lexeme.name s ≠ l := fun h => hname s h.symm
    rw [columns, List.mem_cons, ih]
    · simp [hl]
    · exact htable
    · exact hname

/-- A path that names no column stands for one without a name. -/
theorem Column.resolve_name_eq_empty (aliases : Aliases) {path : String} :
    (resolve path aliases).name = "" ↔ ¬ Path.NamesColumn path :=
  Path.snakeCase_field_eq_empty

/-- Where the columns are those of paths, an identifier of length zero is that of a path that names
none, as no table without a name is written. -/
theorem zeroLength_iff_of_columns {ls : List Sql.Lexeme} {paths : List String} {aliases : Aliases}
    (h : Sql.columns ls = paths.map fun path => (Column.resolve path aliases).shown) :
    .name "" ∈ ls ↔ ∃ path ∈ paths, ¬ Path.NamesColumn path := by
  have hcolumn (path : String) : ((Column.resolve path aliases).shown.table = some "" ∨
      (Column.resolve path aliases).shown.name = "") ↔ ¬ Path.NamesColumn path := by
    rw [or_iff_right (Column.shown_table_ne _)]
    exact Column.resolve_name_eq_empty aliases
  rw [Sql.name_mem_iff, h]
  simp [hcolumn]

/-! ### Clauses and orders -/

/-- A test of a column without a name is that of a leaf that is kept. -/
theorem Node.unnamed_outline_iff (d : Dialect) (aliases : Aliases) (bound : Nat) (ns : List Node) :
    (∃ t ∈ Sql.tests (outline d aliases bound ns), t.column.name = "") ↔
      ∃ leaf ∈ kept ns, ¬ Path.NamesColumn leaf.1.field := by
  have htests (ts : List Sql.Test) : (∃ t ∈ ts, t.column.name = "") ↔
      ∃ column ∈ ts.map Sql.Test.column, column.name = "" := by
    simp
  have hcolumn (leaf : Leaf) : (leaf.column aliases).shown.name = "" ↔
      ¬ Path.NamesColumn leaf.field := Column.resolve_name_eq_empty aliases
  rw [htests, columns_outline]
  simp [hcolumn]

/-- **An identifier of length zero in a clause** is the column of a leaf that is kept. -/
theorem Compiled.Renders.zeroLength_iff {r : Compiled} {c : Compiler} {bound : Nat} {keyword : Bool}
    {ns : List Node} (h : r.Renders c bound keyword ns)
    (hoperator : Sql.IsOperator c.dialect.patternOperator) :
    .name "" ∈ Sql.lexemes bound r.whereClause ↔
      ∃ leaf ∈ Node.kept ns, ¬ Path.NamesColumn leaf.1.field := by
  have hcolumns : Sql.columns (Sql.lexemes bound r.whereClause) =
      ((Node.kept ns).map (·.1.field)).map fun path => (Column.resolve path c.aliases).shown := by
    rw [h.columns hoperator, List.map_map]
    rfl
  rw [zeroLength_iff_of_columns hcolumns]
  simp

/-- **An identifier of length zero in an order** is the column it sorts by. -/
theorem Compiler.zeroLength_sortClause_iff (c : Compiler) (bound : Nat) (sort : Option SortKey) :
    .name "" ∈ Sql.lexemes bound (c.sortClause sort) ↔
      ∃ o, sort = some o ∧ ¬ Path.NamesColumn o.key := by
  have hcolumns : Sql.columns (Sql.lexemes bound (c.sortClause sort)) =
      (sort.map (·.key)).toList.map fun path => (Column.resolve path c.aliases).shown := by
    rw [c.columns_sortClause bound sort]
    cases sort <;> rfl
  rw [zeroLength_iff_of_columns hcolumns]
  cases sort <;> simp

/-- Paths that name no column are written alike exactly if their tables are. -/
theorem Column.sql_eq_sql_iff_of_unnamed {p q : String} (hp : ¬ Path.NamesColumn p)
    (hq : ¬ Path.NamesColumn q) (aliases : Aliases) :
    (resolve p aliases).sql = (resolve q aliases).sql ↔
      (resolve p aliases).qualifier = (resolve q aliases).qualifier := by
  rw [sql_eq_sql_iff, shown, shown, (resolve_name_eq_empty aliases).mpr hp,
    (resolve_name_eq_empty aliases).mpr hq, Column.mk.injEq]
  exact and_iff_left rfl

namespace Compiler

/-- **When every column of what is compiled has a name.** For raw data of any kind that is compiled,
in any mode, with any aliases:

* for every dialect, the clause is that of tests of which one is of a column without a name exactly
  if the path of a leaf that is kept names none;
* where patterns are matched with an operator that can be read, an identifier of length zero is read
  in the clause exactly then;
* an identifier of length zero is read in the order exactly if the path of that names no column;
* two paths that name no column are written alike exactly if their tables are.
-/
theorem zeroLength_of_selectRaw {c : Compiler} {k : Compilation} {v : Value} {r : Compiled}
    {sel : Selection} {ns : List Node} (hsel : (Selection.read c.strict v).result = .ok sel)
    (hns : sel.effectiveNodes k.textFields = .ok ns) (h : (c.selectRaw k v).result = .ok r) :
    let bound := k.offset.toNat
    let unnamed := ∃ leaf ∈ Node.kept ns, ¬ Path.NamesColumn leaf.1.field
    r.Renders c bound k.keyword ns ∧
    ((∃ t ∈ Sql.tests (Node.outline c.dialect c.aliases bound ns), t.column.name = "") ↔ unnamed) ∧
    (Sql.IsOperator c.dialect.patternOperator →
      (.name "" ∈ Sql.lexemes bound r.whereClause ↔ unnamed)) ∧
    (.name "" ∈ Sql.lexemes bound r.sortClause ↔
      ∃ o, sel.sort = some o ∧ ¬ Path.NamesColumn o.key) ∧
    ∀ p q, ¬ Path.NamesColumn p → ¬ Path.NamesColumn q →
      ((Column.resolve p c.aliases).sql = (Column.resolve q c.aliases).sql ↔
        (Column.resolve p c.aliases).qualifier = (Column.resolve q c.aliases).qualifier) := by
  -- raw data is compiled as the selection that is read from it
  obtain ⟨sel', hsel', hselect⟩ := c.select_of_selectRaw h
  obtain rfl : sel' = sel := Except.ok.inj (hsel'.symm.trans hsel)
  obtain ⟨bound, ns', hbound, hns', hrenders⟩ := select_renders hselect
  obtain rfl : ns' = ns := Except.ok.inj (hns'.symm.trans hns)
  have htoNat : k.offset.toNat = bound := by rw [hbound, Int.toNat_natCast]
  rw [htoNat]
  intro bound' unnamed
  -- the clause is that of the outline, and the order has one column of its own
  refine ⟨hrenders, Node.unnamed_outline_iff _ _ _ _, hrenders.zeroLength_iff, ?_,
    fun p q hp hq => Column.sql_eq_sql_iff_of_unnamed hp hq c.aliases⟩
  rw [sortClause_of_select hselect]
  exact c.zeroLength_sortClause_iff bound' _

/-- Raw data with a filter on fields for equality and an order. -/
def petsBy (fields : List String) (key : String) : Value :=
  let leaf (field : String) : Value := .map
    [(.text "field", .text field), (.text "operator", .text "eq"), (.text "value", .int 1),
      (.text "condition_type", .text "and")]
  .map [(.text "filters", .list (fields.map leaf)), (.text "sort", .map [(.text "key", .text key)])]

/-- A strict compiler with an alias that is empty. -/
def emptyAlias : Compiler := { strict := true, aliases := [("pets", "")] }

/-- What it compiles of paths with one letter or digit behind the last dot. -/
def namedOnce : Compiled :=
  ⟨.int standardLimit, .int 0, "ORDER BY \"x\" ASC", "WHERE \"a\".\"1\" = $1 AND \"b\" = $2",
    [.int 1, .int 1]⟩

/-- One letter or digit behind the last dot is enough. -/
theorem zeroLength_of_selectRaw_of_named :
    (emptyAlias.selectRaw {} (petsBy ["as.é1", "pets.!B!"] "..x")).result = .ok namedOnce ∧
    .name "" ∉ Sql.lexemes 0 namedOnce.whereClause ∧
    .name "" ∉ Sql.lexemes 0 namedOnce.sortClause := by
  let ns : List Node := [.leaf ⟨"as.é1", "eq", .int 1, some .and⟩,
    .leaf ⟨"pets.!B!", "eq", .int 1, some .and⟩]
  let sel : Selection := { Selection.ofNodes ns with sort := some ⟨"..x", .ascending⟩ }
  have hsel : (Selection.read true (petsBy ["as.é1", "pets.!B!"] "..x")).result = .ok sel := by
    rfl
  have hcompiled : (emptyAlias.selectRaw {} (petsBy ["as.é1", "pets.!B!"] "..x")).result =
      .ok namedOnce := by
    rfl
  have hnamed : ∀ leaf ∈ Node.kept ns, Path.NamesColumn leaf.1.field := by
    decide
  have hkey : Path.NamesColumn "..x" := by
    decide
  obtain ⟨-, -, hclause, horder, -⟩ := zeroLength_of_selectRaw hsel rfl hcompiled
  -- neither a path of the filter nor that of the order is without a name
  refine ⟨hcompiled, ?_, ?_⟩
  · intro hmem
    obtain ⟨leaf, hleaf, hunnamed⟩ := (hclause Sql.isOperator_ilike).mp hmem
    exact hunnamed (hnamed leaf hleaf)
  · intro hmem
    obtain ⟨o, ho, hunnamed⟩ := horder.mp hmem
    obtain rfl := Option.some.inj ho
    exact hunnamed hkey

/-- **A path without a letter or digit passes**, unless it is empty, and is written as an identifier
of length zero, the same for every such path. -/
theorem not_named_of_punctuation :
    let c : Compiler := { strict := true }
    let clause := "WHERE \"\" = $1 AND \"\" = $2"
    (c.selectRaw {} (petsBy ["!!", "é"] "?")).result =
      .ok ⟨.int standardLimit, .int 0, "ORDER BY \"\" ASC", clause, [.int 1, .int 1]⟩ ∧
    .name "" ∈ Sql.lexemes 0 clause ∧ .name "" ∈ Sql.lexemes 0 "ORDER BY \"\" ASC" ∧
    (c.selectRaw {} (petsBy [""] "?")).result.toOption = none :=
  ⟨rfl, by decide, by decide, rfl⟩

end Compiler

end BoundSql
