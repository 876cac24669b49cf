import BoundSql.Proofs.Path
import BoundSql.Proofs.Session.Aligned

/-!
# Columns of the statement's own table

A filter or an order may name a column of the very table a statement is about, as a dotted path that
begins with that table. The statement names the table as it is given, and a projection qualifies its
columns by it. A path has its table looked up among the aliases, and without aliases a final `s` is
dropped. So the qualifier is the table of the statement exactly if the table has a name and that
name does not end in `s`; for other tables an alias has to say that the name is meant.

* `Column.resolve_ownPath`, `Column.qualifier_ownPath_eq_iff`, `Column.sql_ownPath_eq_iff` — the
  column that such a path stands for, against the table and against a projection;
* `Session.Filters` — the nodes and the order of a call;
* `Session.OnTable`, `Session.RefersTo` — a statement that names its table, and a column wherever
  its path is given;
* `Session.refersTo_of_executed` — what is executed.
-/

namespace BoundSql

/-! ### Paths that begin with a table -/

/-- **Whether a table keeps its name** as the qualifier of a path. -/
def KeepsName (table : String) : Prop := table ≠ "" ∧ table.toList.getLast? ≠ some 's'

instance (table : String) : Decidable (KeepsName table) :=
  inferInstanceAs (Decidable (_ ∧ _))

/-- A name is its own singular unless it ends in `s`. -/
theorem singular_eq_self_iff {name : String} :
    singular name = name ↔ name.toList.getLast? ≠ some 's' := by
  rw [List.getLast?_eq_head?_reverse, singular]
  split
  · rename_i rest hchars
    refine iff_of_false ?_ (by simp [hchars])
    -- without its last letter the name is shorter
    intro heq
    have hlength := congrArg List.length hchars
    rw [← heq] at hlength
    simp at hlength
  · rename_i hother
    refine iff_of_true rfl fun hlast => ?_
    obtain ⟨rest, hrest⟩ := List.head?_eq_some_iff.mp hlast
    exact hother rest hrest

/-- The path of a field of a table. -/
def Path.own (table field : String) : String := table ++ "." ++ field

namespace Column

variable {table field : String}

/-- **A path that begins with a table** stands for a column of its singular. -/
theorem resolve_ownPath (ht : '.' ∉ table.toList) (hf : '.' ∉ field.toList) :
    resolve (Path.own table field) [] = ⟨some (singular table), Ident.snakeCase field⟩ := by
  rw [resolve, Path.own, Path.split_dotted ht, Path.field_of_no_dot hf]
  rfl

/-- The qualifier is the table exactly if that keeps its name. -/
theorem qualifier_ownPath_eq_iff (ht : '.' ∉ table.toList) (hf : '.' ∉ field.toList) :
    (resolve (Path.own table field) []).qualifier = some table ↔ KeepsName table := by
  rw [resolve_ownPath ht hf, qualifier, Option.filter_eq_some_iff, Option.some_inj,
    singular_eq_self_iff, KeepsName, and_comm]
  simp

/-- The column is written as in a projection exactly if the table keeps its name. -/
theorem sql_ownPath_eq_iff (ht : '.' ∉ table.toList) (hf : '.' ∉ field.toList) :
    (resolve (Path.own table field) []).sql = FieldList.select table none [field] ↔
      KeepsName table := by
  have hselect : FieldList.select table none [field] =
      Ident.quote table ++ "." ++ Ident.quote (Ident.snakeCase field) :=
    String.intercalate_singleton
  have hname : (resolve (Path.own table field) []).name = Ident.snakeCase field := by
    rw [resolve_ownPath ht hf]
  rw [← qualifier_ownPath_eq_iff ht hf, hselect, ← hname, sql_eq_iff]

end Column

/-- The table of a call that may filter it. -/
def Call.filteredTable? {ε : Type} : Call ε → Option String
  | .getAll table _ _ | .get table _ _ _ | .search table _ _ | .update table _ _ _
  | .delete table _ _ => some table
  | _ => none

namespace Session

variable {ε : Type}

/-- **What a call filters by and sorts by**: the nodes of its filter with the search for a free
text, and the order it asks for. -/
inductive Filters (s : Session) : Call ε → List Node → Option SortKey → Prop where
  | getAll {table : String} {v : Value} {e : Option ε} {ns : List Node}
      (hns : (Node.ofFilters s.compiler.strict v).result = .ok ns) :
      Filters s (.getAll table v e) ns none
  | get {table : String} {fields : List String} {v : Value} {e : Option ε} {ns : List Node}
      (hns : (Node.ofFilters s.compiler.strict v).result = .ok ns) :
      Filters s (.get table fields v e) ns none
  | search {table : String} {data : Value} {fields : List String} {sel : Selection}
      {ns : List Node} (hsel : (Selection.read s.compiler.strict data).result = .ok sel)
      (hns : sel.effectiveNodes fields = .ok ns) :
      Filters s (.search table data fields) ns sel.sort
  | update {table : String} {data v : Value} {allowAll : Bool} {ns : List Node}
      (hns : (Node.ofFilters s.compiler.strict v).result = .ok ns) :
      Filters s (.update table data v allowAll) ns none
  | delete {table : String} {v : Value} {allowAll : Bool} {ns : List Node}
      (hns : (Node.ofFilters s.compiler.strict v).result = .ok ns) :
      Filters s (.delete table v allowAll) ns none

/-- The clause of nodes behind `bound` parameters. -/
def whereText (s : Session) (bound : Nat) (ns : List Node) : String :=
  Compiler.withKeyword true (Sql.write s.dialect.style
    (Sql.pieces true (Node.outline s.dialect s.compiler.aliases bound ns)))

/-- **A statement that filters a table**: somewhere it names the table, and behind that stand the
clause of the nodes and the order. -/
structure OnTable (s : Session) (table : String) (bound : Nat) (ns : List Node)
    (sort : Option SortKey) (sql : String) : Prop where
  parts : ∃ front keyword middle back, keyword ∈ ["FROM ", "UPDATE ", "DELETE FROM "] ∧
    sql = sentence (front ++ (keyword ++ Ident.quote table) ::
      (middle ++ s.whereText bound ns :: s.compiler.sortClause sort :: back))

/-- An empty part at the end of a sentence is not written. -/
theorem sentence_append_empty (parts : List String) :
    sentence (parts ++ [""]) = sentence parts := by
  simp [sentence, List.filter_append]

theorem onTable_of_unsorted {s : Session} {table sql : String} {bound : Nat} {ns : List Node}
    (front : List String) (keyword : String) (middle : List String)
    (hkeyword : keyword ∈ ["FROM ", "UPDATE ", "DELETE FROM "])
    (hsql : sql = sentence (front ++ (keyword ++ Ident.quote table) ::
      (middle ++ [s.whereText bound ns]))) : s.OnTable table bound ns none sql := by
  refine ⟨front, keyword, middle, [], hkeyword, ?_⟩
  rw [hsql, ← sentence_append_empty]
  simp [Compiler.sortClause]

/-- The clause of a filter is that of its nodes. -/
theorem whereText_of_filter {s : Session} (offset : Nat) {v : Value} {r : Compiled}
    (h : (s.compiler.filter offset v).result = .ok r) :
    ∃ ns, (Node.ofFilters s.compiler.strict v).result = .ok ns ∧
      r.whereClause = s.whereText offset ns := by
  obtain ⟨bound, ns, hbound, hns, hrenders⟩ := Compiler.filter_renders h
  obtain rfl : offset = bound := Int.ofNat.inj hbound
  exact ⟨ns, hns, hrenders.whereClause⟩

/-- The clauses of a search are those of its nodes and its order. -/
theorem whereText_of_selectRaw {s : Session} {fields : List String} {data : Value} {r : Compiled}
    (h : (s.compiler.selectRaw { textFields := fields } data).result = .ok r) :
    ∃ sel ns, (Selection.read s.compiler.strict data).result = .ok sel ∧
      sel.effectiveNodes fields = .ok ns ∧ r.whereClause = s.whereText 0 ns ∧
      r.sortClause = s.compiler.sortClause sel.sort := by
  obtain ⟨sel, hsel, hselect⟩ := s.compiler.select_of_selectRaw h
  obtain ⟨bound, ns, hbound, hns, hrenders⟩ := Compiler.select_renders hselect
  obtain rfl : 0 = bound := Int.ofNat.inj hbound
  exact ⟨sel, ns, hsel, hns, hrenders.whereClause, Compiler.sortClause_of_select hselect⟩

/-- **What is sent filters its table.** -/
theorem onTable_of_send {s : Session} {call : Call ε} {table : String}
    (htable : call.filteredTable? = some table) {stmt : Statement} {e : Expectation ε}
    (h : (s.prepare call).result = .ok (.send stmt e)) :
    ∃ bound ns sort, s.Filters call ns sort ∧ s.OnTable table bound ns sort stmt.sql := by
  -- only a search is ordered, and only an update binds values in front of its clause
  cases call with
  | getAll t v notSingle =>
    obtain rfl := Option.some.inj htable
    obtain ⟨r, hr, hstmt⟩ := Report.result_map_eq_ok.mp h
    obtain ⟨ns, hns, hwhere⟩ := whereText_of_filter 0 hr
    cases hstmt
    refine ⟨0, ns, none, .getAll hns,
      onTable_of_unsorted ["SELECT " ++ "*"] "FROM " [] (by decide) ?_⟩
    rw [← hwhere]
    rfl
  | get t fields v notSingle =>
    obtain rfl := Option.some.inj htable
    obtain ⟨r, hr, hstmt⟩ := Report.result_map_eq_ok.mp h
    obtain ⟨ns, hns, hwhere⟩ := whereText_of_filter 0 hr
    cases hstmt
    refine ⟨0, ns, none, .get hns,
      onTable_of_unsorted ["SELECT " ++ FieldList.select t none fields] "FROM " [] (by decide) ?_⟩
    rw [← hwhere]
    rfl
  | search t data fields =>
    obtain rfl := Option.some.inj htable
    obtain ⟨r, hr, hstmt⟩ := Report.result_map_eq_ok.mp h
    obtain ⟨sel, ns, hsel, hns, hwhere, hsort⟩ := whereText_of_selectRaw hr
    cases hstmt
    refine ⟨0, ns, sel.sort, .search hsel hns, ["SELECT " ++ "*"], "FROM ", [],
      [pageClause s.dialect r.values.length], by decide, ?_⟩
    rw [← hwhere, ← hsort]
    rfl
  | update t data v allowAll =>
    -- the clause is numbered behind the values that are set
    obtain rfl := Option.some.inj htable
    obtain ⟨changes, r, -, hr, rfl⟩ := exists_changes_of_update h
    obtain ⟨ns, hns, hwhere⟩ := whereText_of_filter _ (filter_of_writeFilter hr)
    refine ⟨changes.length, ns, none, .update hns,
      onTable_of_unsorted [] "UPDATE " ["SET " ++ assignments s.dialect (changes.map (·.1))]
        (by decide) ?_⟩
    rw [← hwhere]
    rfl
  | delete t v allowAll =>
    obtain rfl := Option.some.inj htable
    obtain ⟨r, hr, hstmt⟩ := Report.result_map_eq_ok.mp h
    obtain ⟨ns, hns, hwhere⟩ := whereText_of_filter _ (filter_of_writeFilter hr)
    cases hstmt
    refine ⟨0, ns, none, .delete hns, onTable_of_unsorted [] "DELETE FROM " [] (by decide) ?_⟩
    rw [← hwhere]
    rfl
  | _ => cases htable

/-- **A path refers to a column** in a statement: every leaf with this path that is kept is tested,
in its place in the clause, as that column, and an order with this path is by that column. -/
structure RefersTo (s : Session) (path : String) (c : Column) (bound : Nat) (ns : List Node)
    (sort : Option SortKey) : Prop where
  tests : ∀ (i : Nat) (l : Leaf) (form : Operator.Form), (Node.kept ns)[i]? = some (l, form) →
    l.field = path →
      (Sql.tests (Node.outline s.dialect s.compiler.aliases bound ns))[i]? =
        some ⟨c.shown, .ofForm s.dialect form, bound + i + 1⟩
  order : ∀ o, sort = some o → o.key = path →
    s.compiler.sortClause sort = "ORDER BY " ++ c.sql ++ " " ++ o.direction.keyword

theorem refersTo_resolve (s : Session) (path : String) (bound : Nat) (ns : List Node)
    (sort : Option SortKey) :
    s.RefersTo path (Column.resolve path s.compiler.aliases) bound ns sort := by
  constructor
  · rintro i l form hkept rfl
    rw [Node.tests_outline, List.getElem?_mapIdx, hkept]
    rfl
  · rintro o rfl rfl
    rfl

/-- **Which table a path of the own table refers to.** Without aliases, a path that begins with the
table of a statement refers to a column of the table's singular. The qualifier is the table that the
statement names, and the column is written as in a projection, exactly if the table keeps its
name. -/
theorem refersTo_of_executed {s : Session} (haliases : s.compiler.aliases = [])
    {table field : String} (ht : '.' ∉ table.toList) (hf : '.' ∉ field.toList) {call : Call ε}
    (htable : call.filteredTable? = some table) {replies : List Reply} {stmt : Statement}
    (h : .executed stmt ∈ (s.run call replies).events) :
    let c : Column := ⟨some (singular table), Ident.snakeCase field⟩
    (∃ bound ns sort, s.Filters call ns sort ∧ s.OnTable table bound ns sort stmt.sql ∧
      s.RefersTo (Path.own table field) c bound ns sort) ∧
    (c.qualifier = some table ↔ KeepsName table) ∧
    (c.sql = FieldList.select table none [field] ↔ KeepsName table) := by
  intro c
  -- without an alias the table of a path is the singular of its first segment
  have hresolve : Column.resolve (Path.own table field) [] = c := Column.resolve_ownPath ht hf
  obtain ⟨e, hsend⟩ := send_of_executed h
  obtain ⟨bound, ns, sort, hfilters, htable⟩ := onTable_of_send htable hsend
  refine ⟨⟨bound, ns, sort, hfilters, htable, ?_⟩, ?_, ?_⟩
  · rw [← hresolve, ← haliases]
    exact s.refersTo_resolve _ bound ns sort
  · exact hresolve ▸ Column.qualifier_ownPath_eq_iff ht hf
  · exact hresolve ▸ Column.sql_ownPath_eq_iff ht hf

/-- A session without aliases. -/
def unaliased : Session := ⟨{}, [], none⟩

/-- Asks for the names of the owners of one name, whose table is in the singular. -/
def findOwner : Call Unit :=
  .get "owner" ["name"] (.map [(.text "owner.name", .text "Ada")]) none

/-- The statement that does so. -/
def ownerStatement : Statement :=
  ⟨"SELECT \"owner\".\"name\" FROM \"owner\" WHERE \"owner\".\"name\" = $1", [.text "Ada"]⟩

/-- A table in the singular is the qualifier of its own paths. -/
theorem refersTo_of_executed_of_owner :
    (unaliased.run findOwner []).events = [.entered, .executed ownerStatement, .committed] ∧
      KeepsName "owner" ∧
      ∃ bound ns sort, unaliased.Filters findOwner ns sort ∧
        unaliased.OnTable "owner" bound ns sort ownerStatement.sql ∧
        unaliased.RefersTo "owner.name" ⟨some "owner", "name"⟩ bound ns sort := by
  have hevents : (unaliased.run findOwner []).events =
      [.entered, .executed ownerStatement, .committed] := by
    rfl
  have hexecuted : .executed ownerStatement ∈ (unaliased.run findOwner []).events :=
    hevents ▸ List.mem_cons_of_mem _ List.mem_cons_self
  have htable : '.' ∉ "owner".toList := by
    decide
  have hfield : '.' ∉ "name".toList := by
    decide
  have hcall : findOwner.filteredTable? = some "owner" := rfl
  obtain ⟨⟨bound, ns, sort, hfilters, hnamed, hrefers⟩, -, -⟩ :=
    refersTo_of_executed (s := unaliased) rfl htable hfield hcall hexecuted
  -- the singular of `owner` is `owner`
  have hcolumn : (⟨some (singular "owner"), Ident.snakeCase "name"⟩ : Column) =
      ⟨some "owner", "name"⟩ := by
    decide
  rw [hcolumn] at hrefers
  exact ⟨hevents, by decide, bound, ns, sort, hfilters, hnamed, hrefers⟩

/-- Asks for the names of the pets of one name, whose table is in the plural. -/
def findPet : Call Unit := .get "pets" ["name"] (.map [(.text "pets.name", .text "Rex")]) none

/-- **A table in the plural is not the qualifier of its own paths**: the statement names the table
`pets`, projects from it, and compares a column of `pet`. -/
theorem not_refersTo_of_pets :
    (unaliased.run findPet []).events =
      [.entered,
        .executed ⟨"SELECT \"pets\".\"name\" FROM \"pets\" WHERE \"pet\".\"name\" = $1",
          [.text "Rex"]⟩,
        .committed] ∧
      (Column.resolve (Path.own "pets" "name") []).qualifier = some "pet" ∧
      (Column.resolve (Path.own "pets" "name") []).qualifier ≠ some "pets" ∧
      (Column.resolve (Path.own "pets" "name") []).sql ≠ FieldList.select "pets" none ["name"] :=
  ⟨rfl, by decide, by decide, by decide⟩

end Session

end BoundSql
