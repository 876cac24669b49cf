import BoundSql.Proofs.Clause.Compiled

/-!
# The columns that a clause names

The columns of a statement can be read off its lexemes: a name behind a dot is a column of the table
in front of it, and a name alone is a column of no table. In a compiled clause these are the columns
of the leaves that are kept, from left to right, and in an order the one column sorted by. Nothing
else in either is a name.

* `Sql.columns` — the columns among lexemes, and `Sql.columns_lexemesOf`, those of siblings;
* `Compiled.Renders.columns` — the columns of a compiled clause;
* `Compiler.columns_sortClause` — the column of an order.
-/

namespace BoundSql

namespace Sql

/-- The columns that lexemes name, from left to right. -/
def columns : List Lexeme → List Column
  | [] => []
  | .name t :: .dot :: .name c :: ls => ⟨some t, c⟩ :: columns ls
  | .name c :: ls => ⟨none, c⟩ :: columns ls
  | _ :: ls => columns ls

/-- A column is named by its lexemes, unless a dot follows. -/
theorem columns_columnLexemes (c : Column) (ls : List Lexeme) (h : ls.head? ≠ some .dot) :
    columns (columnLexemes c ++ ls) = c :: columns ls := by
  obtain ⟨table, name⟩ := c
  cases table with
  | some table => rfl
  | none =>
    cases ls with
    | nil => rfl
    | cons l ls =>
      cases l <;> first | rfl | exact absurd rfl h

/-- A test names its column and no other, whatever stands behind it. -/
theorem columns_test (t : Test) (ls : List Lexeme) :
    columns (t.lexemes ++ ls) = t.column :: columns ls := by
  obtain ⟨⟨table, name⟩, phrase, number⟩ := t
  cases table with
  | none => cases phrase <;> rfl
  | some table => cases phrase <;> rfl

/-- **Siblings name the columns** of their tests, from left to right. -/
theorem columns_lexemesOf (first : Bool) (ts : List Term) (ls : List Lexeme) :
    columns (lexemesOf first ts ++ ls) = (tests ts).map Test.column ++ columns ls := by
  have hlead : ∀ (first : Bool) (t : Term) (ls : List Lexeme),
      columns ((if first then [] else joinerLexemes t.joiner) ++ ls) = columns ls := by
    intro first t ls
    cases first with
    | true => rfl
    | false => cases t.joiner <;> rfl
  induction ts using forest_induction generalizing first ls with
  | nil => rfl
  | test j t ts ih =>
    rw [lexemesOf_cons, List.append_assoc, hlead, List.append_assoc]
    show columns (t.lexemes ++ _) = _
    rw [columns_test, ih]
    rfl
  | group j inner ts ihInner ih =>
    -- the brackets are no names, so a group names what its siblings name
    rw [lexemesOf_cons, List.append_assoc, hlead, List.append_assoc]
    show columns (lexemesOf true inner ++ [.closing] ++ _) = _
    rw [List.append_assoc, ihInner, tests_group_cons, List.map_append, List.append_assoc, ← ih]
    rfl

end Sql

/-- **Columns are written alike** exactly if they show the same table and name. -/
theorem Column.sql_eq_sql_iff {a b : Column} : a.sql = b.sql ↔ a.shown = b.shown := by
  -- a column is read back as the table and the name it shows
  have hread : ∀ c : Column,
      Sql.columns (Sql.scan .between c.sql.toList) = [c.shown] := by
    intro c
    have hscan : Sql.scan .between (c.shown.sql.toList ++ []) = Sql.columnLexemes c.shown ++ [] :=
      Sql.scan_column c.shown_table_ne (by simp)
    rw [List.append_nil, sql_shown] at hscan
    rw [hscan]
    exact Sql.columns_columnLexemes _ _ (by simp)
  constructor
  · intro h
    have hlists : [a.shown] = [b.shown] := by
      rw [← hread a, ← hread b, h]
    exact List.singleton_inj.mp hlists
  · intro h
    rw [← a.sql_shown, ← b.sql_shown, h]

/-- The tests of an outline are of the columns of the leaves that are kept. -/
theorem Node.columns_outline (d : Dialect) (aliases : Aliases) (bound : Nat) (ns : List Node) :
    (Sql.tests (outline d aliases bound ns)).map Sql.Test.column =
      (kept ns).map fun leaf => (leaf.1.column aliases).shown := by
  rw [tests_outline]
  refine List.ext_getElem (by simp) fun i hi _ => ?_
  simp [Leaf.test]

/-- The column of an order, if there is one. -/
def SortKey.columns (aliases : Aliases) (sort : Option SortKey) : List Column :=
  (sort.map fun o => (Column.resolve o.key aliases).shown).toList

/-- **The columns of a compiled clause** are those of the leaves that are kept. -/
theorem Compiled.Renders.columns {r : Compiled} {c : Compiler} {bound : Nat} {keyword : Bool}
    {ns : List Node} (h : r.Renders c bound keyword ns)
    (hoperator : Sql.IsOperator c.dialect.patternOperator) :
    Sql.columns (Sql.lexemes bound r.whereClause) =
      (Node.kept ns).map fun leaf => (leaf.1.column c.aliases).shown := by
  let ts := Node.outline c.dialect c.aliases bound ns
  have hlexemes : Sql.lexemes bound (Sql.write c.dialect.style (Sql.pieces true ts)) =
      Sql.lexemesOf true ts :=
    Sql.lexemes_write c.dialect.style (Node.outline_legible hoperator _ _ _)
      (Node.numbers_outline _ _ _ _)
  have hcolumns : Sql.columns (Sql.lexemesOf true ts) =
      (Node.kept ns).map fun leaf => (leaf.1.column c.aliases).shown := by
    have hts := Sql.columns_lexemesOf true ts []
    rw [List.append_nil, Node.columns_outline] at hts
    exact hts.trans (List.append_nil _)
  rw [h.whereClause, Compiler.withKeyword]
  split
  · -- the keyword is no name
    rw [Sql.lexemes_filter, hlexemes]
    exact hcolumns
  · rw [hlexemes]
    exact hcolumns

/-- An order is read as its keywords, its column and its direction. -/
theorem Compiler.lexemes_sortClause (c : Compiler) (bound : Nat) (o : SortKey) :
    Sql.lexemes bound (c.sortClause (some o)) =
      [.operator "ORDER", .operator "BY"] ++
        (Sql.columnLexemes (Column.resolve o.key c.aliases).shown ++
          [.operator o.direction.keyword]) := by
  let column := (Column.resolve o.key c.aliases).shown
  have horder : ∀ rest, Sql.scan .between ("ORDER BY ".toList ++ rest) =
      [.operator "ORDER", .operator "BY"] ++ Sql.scan .between rest := fun _ => rfl
  have hdirection : Sql.scan .between (' ' :: o.direction.keyword.toList) =
      [.operator o.direction.keyword] := by
    cases o.direction <;> rfl
  have hscan : Sql.scan .between (c.sortClause (some o)).toList =
      [.operator "ORDER", .operator "BY"] ++
        (Sql.columnLexemes column ++ [.operator o.direction.keyword]) := by
    have hchars : (c.sortClause (some o)).toList =
        "ORDER BY ".toList ++ (column.sql.toList ++ ' ' :: o.direction.keyword.toList) := by
      simp [sortClause, column]
    rw [hchars, horder, Sql.scan_column (Column.shown_table_ne _) (by simp), hdirection]
  -- there is no placeholder to number
  rw [Sql.lexemes, hscan]
  show Sql.enumerate bound (_ ++ (Sql.columnLexemes column ++ _)) =
    _ ++ (Sql.columnLexemes column ++ _)
  generalize column = shown
  cases htable : shown.table <;> simp [Sql.columnLexemes, Sql.enumerate, htable]

/-- **The column of an order** is the one it sorts by. -/
theorem Compiler.columns_sortClause (c : Compiler) (bound : Nat) (sort : Option SortKey) :
    Sql.columns (Sql.lexemes bound (c.sortClause sort)) = SortKey.columns c.aliases sort := by
  cases sort with
  | none => rfl
  | some o =>
    rw [c.lexemes_sortClause bound o]
    exact Sql.columns_columnLexemes _ _ (by simp)

end BoundSql
