import BoundSql.Proofs.Clause.Columns
import BoundSql.Proofs.Path

/-!
# Qualified columns

A path with a dot in it is to be written with its table in front, and one without a dot as a column
alone. A path is written in one way wherever it is given (`Compiler.writes_resolve`), so only its
column has to be looked at. The table is the alias of the first segment, or else that segment
without a final `s`. An alias is written as it is. Of the segment `s` nothing is left to be written,
and the column comes out as that of a path without a dot; any other segment leaves a table.

* `Compiler.Writes` — what a path is written as: as a column, in a leaf, in an order, and as read
  in a compiled clause;
* `Compiler.qualified_iff` — when that is a table and a column.
-/

namespace BoundSql

namespace Compiler

/-- **What a path is written as** wherever it is given. -/
structure Writes (c : Compiler) (path text : String) : Prop where
  column : (Column.resolve path c.aliases).sql = text
  leaf : ∀ l : Leaf, l.field = path → (l.column c.aliases).sql = text
  order : ∀ o : SortKey, o.key = path →
    c.sortClause (some o) = "ORDER BY " ++ text ++ " " ++ o.direction.keyword
  /-- A kept leaf has its column at its place among those read in the clause. -/
  clause : ∀ {r : Compiled} {bound : Nat} {keyword : Bool} {ns : List Node},
    r.Renders c bound keyword ns → Sql.IsOperator c.dialect.patternOperator →
    ∀ (i : Nat) (leaf : Leaf × Operator.Form), (Node.kept ns)[i]? = some leaf →
      leaf.1.field = path →
      ∃ column, (Sql.columns (Sql.lexemes bound r.whereClause))[i]? = some column ∧
        column.sql = text

/-- A path is written as the column it stands for. -/
theorem writes_resolve (c : Compiler) (path : String) :
    c.Writes path (Column.resolve path c.aliases).sql := by
  -- a column by itself, a leaf, an order, and a test of a clause
  constructor
  · rfl
  · rintro l rfl
    rfl
  · rintro o rfl
    rfl
  · rintro r bound keyword ns hrenders hoperator i leaf hleaf rfl
    refine ⟨(leaf.1.column c.aliases).shown, ?_, Column.sql_shown _⟩
    rw [hrenders.columns hoperator, List.getElem?_map, hleaf]
    rfl

/-- So it is written as one text only. -/
theorem writes_iff {c : Compiler} {path text : String} :
    c.Writes path text ↔ (Column.resolve path c.aliases).sql = text := by
  constructor
  · exact Writes.column
  · rintro rfl
    exact c.writes_resolve path

/-- **When a path with a dot keeps its table.** For a compiler whose aliases all have a name, and
any path with a first segment that is not empty and a dot behind it, wherever the path is given:

* it is written as a column of a table, which is the alias of the segment if there is one and its
  singular if not, exactly if there is an alias or the segment is not `s`;
* if it is not, it is written as a column alone.

A path without a dot is always written as a column alone, which is named by all of it. -/
theorem qualified_iff {c : Compiler} (htargets : ∀ a ∈ c.aliases, a.2 ≠ "") {first : String}
    (hfirst : first ≠ "") (hdot : '.' ∉ first.toList) (rest : String) :
    let path := first ++ "." ++ rest
    let table := (c.aliases.find? first).getD (singular first)
    let name := Ident.snakeCase (Path.field rest)
    (c.Writes path (Ident.quote table ++ "." ++ Ident.quote name) ↔
      c.aliases.find? first ≠ none ∨ first ≠ "s") ∧
    (c.aliases.find? first = none ∧ first = "s" → c.Writes path (Ident.quote name)) ∧
    ∀ plain : String, '.' ∉ plain.toList →
      c.Writes plain (Ident.quote (Ident.snakeCase plain)) := by
  intro path table name
  have hresolve : Column.resolve path c.aliases = ⟨some table, name⟩ := by
    rw [Column.resolve, Path.split_dotted hdot]
    rfl
  -- an alias is not empty, and of all singulars only that of `s` is
  have hlost : table = "" ↔ c.aliases.find? first = none ∧ first = "s" :=
    Path.tableOf_eq_empty_iff htargets hfirst
  refine ⟨?_, fun hs => ?_, fun plain hplain => ?_⟩
  · have hqualified : (Column.resolve path c.aliases).sql =
        Ident.quote table ++ "." ++ Ident.quote name ↔ table ≠ "" := by
      rw [hresolve, Column.sql_eq_iff, Column.qualifier]
      simp
    rw [writes_iff, hqualified, ne_eq, hlost, not_and_or]
  · rw [writes_iff, hresolve, hlost.mpr hs]
    rfl
  · rw [writes_iff, Column.resolve, Path.split_of_no_dot hplain]
    rfl

/-- An alias for the segment `s`. -/
def seriesAliases : Compiler := { aliases := [("s", "series")] }

/-- With an alias even the segment `s` is a table, and a path without a dot keeps its final `s`. -/
theorem qualified_iff_of_series :
    (∀ a ∈ seriesAliases.aliases, a.2 ≠ "") ∧
    seriesAliases.Writes "s.first.seasonNo" "\"series\".\"season_no\"" ∧
    seriesAliases.Writes "status" "\"status\"" := by
  have htargets : ∀ a ∈ seriesAliases.aliases, a.2 ≠ "" := by
    decide
  have hdot : '.' ∉ "s".toList := by
    decide
  have hplain : '.' ∉ "status".toList := by
    decide
  have halias : seriesAliases.aliases.find? "s" ≠ none := by
    decide
  obtain ⟨hqualified, -, halone⟩ :=
    qualified_iff htargets (by decide) hdot "first.seasonNo"
  exact ⟨htargets, hqualified.mpr (.inl halias), halone "status" hplain⟩

/-- A leaf on the name of a `t` beside one on the name of an `s`. -/
def namesOfTables : List Node :=
  [.leaf ⟨"t.name", "eq", .int 1, none⟩, .leaf ⟨"s.name", "eq", .int 2, some .and⟩]

/-- **The segment `s` is lost**: without an alias the column is that of a path without a dot, which
may be one of any table. -/
theorem not_qualified_of_s :
    ((({} : Compiler).select {} (.ofNodes namesOfTables)).result.toOption.map (·.whereClause)) =
      some "WHERE \"t\".\"name\" = $1 AND \"name\" = $2" ∧
    Column.resolve "s.name" [] = ⟨some "", "name"⟩ ∧
    ∀ table, ¬ ({} : Compiler).Writes "s.name"
      (Ident.quote table ++ "." ++ Ident.quote (Ident.snakeCase "name")) := by
  refine ⟨rfl, by decide, fun table hwrites => ?_⟩
  have hqualifier : (Column.resolve "s.name" []).qualifier = some table :=
    Column.sql_eq_iff.mp hwrites.column
  cases hqualifier

end Compiler

end BoundSql
