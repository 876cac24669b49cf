import BoundSql.Proofs.Clause.Shape
import BoundSql.Proofs.Insert.Stored
import BoundSql.Proofs.Session.Run

/-!
# Statements do not show values

The text of a statement is made without a look at the values it binds: two calls of one kind that
differ only in values are executed with the same text, if they are executed.

* `Call.Alike` — which calls differ only in values;
* `Session.sameText_of_alike` — what they are sent as, one kind of call at a time;
* `Session.text_eq_of_alike` — what is executed, and the clauses of selections.
-/

namespace BoundSql

open Value

/-- Collections whose rows differ only in values. -/
structure RowsAlike (rows rows' : Value) : Prop where
  items : ∃ items items', rows.items? = some items ∧ rows'.items? = some items' ∧
    List.Forall₂ RowAlike items items'

/-- **Calls that differ only in values**: the same kind of call on the same table, with the same
fields, columns and options. -/
inductive Call.Alike {ε : Type} : Call ε → Call ε → Prop where
  | getAll (table : String) {v v' : Value} (e e' : Option ε)
      (h : v.maskedFilter = v'.maskedFilter) : Alike (.getAll table v e) (.getAll table v' e')
  | get (table : String) (fields : List String) {v v' : Value} (e e' : Option ε)
      (h : v.maskedFilter = v'.maskedFilter) :
      Alike (.get table fields v e) (.get table fields v' e')
  | search (table : String) {data data' : Value} (fields : List String)
      (h : Selection.RawAlike data data') :
      Alike (.search table data fields) (.search table data' fields)
  | insert (table : String) {row row' : Value} (returning : Bool) (h : RowAlike row row') :
      Alike (.insert table row returning) (.insert table row' returning)
  | bulkInsert (table : String) {rows rows' : Value} (returning : Bool) (h : RowsAlike rows rows') :
      Alike (.bulkInsert table rows returning) (.bulkInsert table rows' returning)
  | update (table : String) {row row' v v' : Value} (allowAll : Bool) (hrow : RowAlike row row')
      (h : v.maskedFilter = v'.maskedFilter) :
      Alike (.update table row v allowAll) (.update table row' v' allowAll)
  | delete (table : String) {v v' : Value} (allowAll : Bool)
      (h : v.maskedFilter = v'.maskedFilter) :
      Alike (.delete table v allowAll) (.delete table v' allowAll)

/-! ### Plans -/

namespace InsertPlan

/-- The columns of all rows depend on the columns of each. -/
theorem sharedColumns_eq {rows rows' : List StoredRow}
    (h : rows.map (List.map (·.1)) = rows'.map (List.map (·.1))) :
    sharedColumns rows = sharedColumns rows' := by
  have hfold (rows : List StoredRow) : sharedColumns rows =
      (rows.map (List.map (·.1))).foldl (fun columns row => addColumns columns row) [] := by
    rw [List.foldl_map]
    rfl
  rw [hfold, hfold, h]

/-- Plans of the same columns and as many rows have the same placeholders and as many values. -/
theorem sameText_ofStored {d : Dialect} {row row' : StoredRow}
    (h : row.map (·.1) = row'.map (·.1)) :
    (ofStored d 0 row).columnList = (ofStored d 0 row').columnList ∧
      (ofStored d 0 row).placeholders = (ofStored d 0 row').placeholders ∧
      (ofStored d 0 row).values.length = (ofStored d 0 row').values.length := by
  have hlength : row.length = row'.length := by
    simpa using congrArg List.length h
  refine ⟨?_, ?_, ?_⟩
  · exact congrArg columnText h
  · exact congrArg (fun columns => placeholderText d 0 columns.length) h
  · simpa [ofStored] using hlength

theorem sameText_ofStoredRows {d : Dialect} {rows rows' : List StoredRow}
    (h : rows.map (List.map (·.1)) = rows'.map (List.map (·.1))) :
    (ofStoredRows d 0 rows).columnList = (ofStoredRows d 0 rows').columnList ∧
      (ofStoredRows d 0 rows).placeholders = (ofStoredRows d 0 rows').placeholders ∧
      (ofStoredRows d 0 rows).values.length = (ofStoredRows d 0 rows').values.length := by
  have hcolumns := sharedColumns_eq h
  have hlength : rows.length = rows'.length := by
    simpa using congrArg List.length h
  refine ⟨?_, ?_, ?_⟩
  · exact congrArg columnText hcolumns
  · show ",".intercalate (tuples d 0 _ _) = ",".intercalate (tuples d 0 _ _)
    rw [hcolumns, hlength]
  · simp [ofStoredRows, List.length_flatMap, hcolumns, hlength]

end InsertPlan

/-- Statements that differ only in what is bound. -/
structure Statement.SameText (stmt stmt' : Statement) : Prop where
  sql : stmt.sql = stmt'.sql
  length : stmt.parameters.length = stmt'.parameters.length

namespace Session

variable {ε : Type} {s : Session} {table : String}

/-! ### What is executed -/

section Filtered

variable {v v' : Value} (h : v.maskedFilter = v'.maskedFilter)

include h

/-- Filters that differ only in values leave the same clause and as many values. -/
theorem clause_eq_of_filter {offset : Int} {r r' : Compiled}
    (hr : (s.compiler.filter offset v).result = .ok r)
    (hr' : (s.compiler.filter offset v').result = .ok r') :
    r.whereClause = r'.whereClause ∧ r.values.length = r'.values.length := by
  have hshape := s.compiler.filter_shape offset h
  rw [hr, hr'] at hshape
  obtain ⟨hwhere, -, hlength⟩ := Compiled.shape_eq_iff.mp (Except.ok.inj hshape)
  exact ⟨hwhere, hlength⟩

theorem clause_eq_of_writeFilter {statement : String} {allowAll : Bool} {offset : Nat}
    {r r' : Compiled} (hr : (s.writeFilter statement table v allowAll offset).result = .ok r)
    (hr' : (s.writeFilter statement table v' allowAll offset).result = .ok r') :
    r.whereClause = r'.whereClause ∧ r.values.length = r'.values.length :=
  clause_eq_of_filter h (filter_of_writeFilter hr) (filter_of_writeFilter hr')

end Filtered

/-- Rows that differ only in values are stored in the same columns, row by row. -/
theorem columns_eq_of_rowsAlike {arrays : List String} {rows rows' : Value}
    (h : RowsAlike rows rows') {items items' : List Value} {stored stored' : List StoredRow}
    (hitems : rows.items? = some items) (hitems' : rows'.items? = some items')
    (hstored : List.Forall₂ (fun item row => storedRow arrays item = .ok row) items stored)
    (hstored' : List.Forall₂ (fun item row => storedRow arrays item = .ok row) items' stored') :
    stored.map (List.map (·.1)) = stored'.map (List.map (·.1)) := by
  obtain ⟨_, _, heq, heq', halike⟩ := h.items
  obtain rfl := Option.some.inj (hitems.symm.trans heq)
  obtain rfl := Option.some.inj (hitems'.symm.trans heq')
  -- what is left is about two lists of items, item by item
  clear h hitems hitems' heq heq'
  induction halike generalizing stored stored' with
  | nil =>
    cases hstored
    cases hstored'
    rfl
  | cons hrow _ ih =>
    cases hstored with
    | cons hone hrest =>
      cases hstored' with
      | cons hone' hrest' =>
        rw [List.map_cons, List.map_cons, columns_eq_of_rowAlike hrow hone hone', ih hrest hrest']

/-- **Calls that differ only in values** are executed with the same text and as many parameters. -/
theorem sameText_of_alike {call call' : Call ε} (h : call.Alike call') {stmt stmt' : Statement}
    {e e' : Expectation ε} (hsend : (s.prepare call).result = .ok (.send stmt e))
    (hsend' : (s.prepare call').result = .ok (.send stmt' e')) : stmt.SameText stmt' := by
  -- each text is made of the table, the columns, the clauses and how many values there are
  cases h with
  | getAll table _ _ h =>
    obtain ⟨r, hr, hstmt⟩ := Report.result_map_eq_ok.mp hsend
    obtain ⟨r', hr', hstmt'⟩ := Report.result_map_eq_ok.mp hsend'
    obtain ⟨hwhere, hlength⟩ := clause_eq_of_filter h hr hr'
    cases hstmt
    cases hstmt'
    exact ⟨by rw [hwhere], hlength⟩
  | get table fields _ _ h =>
    obtain ⟨r, hr, hstmt⟩ := Report.result_map_eq_ok.mp hsend
    obtain ⟨r', hr', hstmt'⟩ := Report.result_map_eq_ok.mp hsend'
    obtain ⟨hwhere, hlength⟩ := clause_eq_of_filter h hr hr'
    cases hstmt
    cases hstmt'
    exact ⟨by rw [hwhere], hlength⟩
  | search table fields h =>
    obtain ⟨r, hr, hstmt⟩ := Report.result_map_eq_ok.mp hsend
    obtain ⟨r', hr', hstmt'⟩ := Report.result_map_eq_ok.mp hsend'
    have hshape := s.compiler.selectRaw_shape _ h hr hr'
    obtain ⟨hwhere, hsort, hlength⟩ := Compiled.shape_eq_iff.mp hshape
    cases hstmt
    cases hstmt'
    refine ⟨by rw [hwhere, hsort, hlength], ?_⟩
    rw [List.length_append, List.length_append, hlength]
    rfl
  | insert table returning h =>
    -- the columns come from the keys, and there is a placeholder for each
    obtain ⟨p, hp, hstmt⟩ := Report.except_map_eq_ok.mp hsend
    obtain ⟨p', hp', hstmt'⟩ := Report.except_map_eq_ok.mp hsend'
    obtain ⟨row, hrow, rfl⟩ := Report.except_map_eq_ok.mp hp
    obtain ⟨row', hrow', rfl⟩ := Report.except_map_eq_ok.mp hp'
    have hcolumns := columns_eq_of_rowAlike h hrow hrow'
    obtain ⟨hlist, hplaces, hlength⟩ := InsertPlan.sameText_ofStored (d := s.dialect) hcolumns
    cases hstmt
    cases hstmt'
    refine ⟨?_, hlength⟩
    rw [insertInto, insertInto, hlist, hplaces]
  | bulkInsert table returning h =>
    obtain ⟨p, hp, rfl⟩ := exists_plan_of_bulkInsert hsend
    obtain ⟨p', hp', rfl⟩ := exists_plan_of_bulkInsert hsend'
    obtain ⟨items, stored, hitems, hstored, rfl⟩ := InsertPlan.bulk_eq_ok hp
    obtain ⟨items', stored', hitems', hstored', rfl⟩ := InsertPlan.bulk_eq_ok hp'
    have hcolumns := columns_eq_of_rowsAlike h hitems hitems' hstored hstored'
    obtain ⟨hlist, hplaces, hlength⟩ :=
      InsertPlan.sameText_ofStoredRows (d := s.dialect) hcolumns
    refine ⟨?_, hlength⟩
    rw [insertInto, insertInto, hlist, hplaces]
  | update table allowAll hrow h =>
    obtain ⟨changes, r, hchanges, hr, rfl⟩ := exists_changes_of_update hsend
    obtain ⟨changes', r', hchanges', hr', rfl⟩ := exists_changes_of_update hsend'
    have hcolumns := columns_eq_of_rowAlike hrow hchanges hchanges'
    -- as many values are set, so the clauses are numbered from the same place
    have hcount : changes.length = changes'.length := by
      simpa using congrArg List.length hcolumns
    rw [← hcount] at hr'
    obtain ⟨hwhere, hlength⟩ := clause_eq_of_writeFilter h hr hr'
    refine ⟨by rw [hcolumns, hwhere], ?_⟩
    simp only [List.length_append, List.length_map, hcount, hlength]
  | delete table allowAll h =>
    obtain ⟨r, hr, hstmt⟩ := Report.result_map_eq_ok.mp hsend
    obtain ⟨r', hr', hstmt'⟩ := Report.result_map_eq_ok.mp hsend'
    obtain ⟨hwhere, hlength⟩ := clause_eq_of_writeFilter h hr hr'
    cases hstmt
    cases hstmt'
    exact ⟨by rw [hwhere], hlength⟩

/-- **No text shows a value.** For any session:

* two calls of one kind that differ only in values are executed with the same text, whatever the
  driver replies, and with as many parameters;
* two selections that differ only in values are compiled to the same clauses with as many values, or
  fail with the same error.
-/
theorem text_eq_of_alike (s : Session) :
    (∀ call call' : Call ε, call.Alike call' → ∀ replies replies' stmt stmt',
      .executed stmt ∈ (s.run call replies).events →
      .executed stmt' ∈ (s.run call' replies').events → stmt.SameText stmt') ∧
    ∀ (c : Compiler) (k : Compilation) (selection selection' : Selection),
      selection.Alike selection' →
        (c.select k selection).result.map Compiled.shape =
          (c.select k selection').result.map Compiled.shape := by
  constructor
  · intro call call' halike replies replies' stmt stmt' hexecuted hexecuted'
    -- what is executed is what was prepared, and that depends on no reply
    obtain ⟨e, hsend⟩ := send_of_executed hexecuted
    obtain ⟨e', hsend'⟩ := send_of_executed hexecuted'
    exact sameText_of_alike halike hsend hsend'
  · intro c k selection selection' halike
    exact c.select_shape k halike

/-- The pets of an owner with a text in their names, and no more than some of them. -/
def petsOf (owner : Value) (limit : Int) (text : String) : Call Unit :=
  .search "pets"
    (.map [
      (.text "filters", .list [
        .map [(.text "field", .text "owner"), (.text "operator", .text "eq"),
          (.text "value", owner)]]),
      (.text "limit", .int limit), (.text "freeText", .text text)])
    ["name"]

/-- The statement that looks for pets. -/
def petsSql : String :=
  "SELECT * FROM \"pets\" WHERE \"owner\" = $1 AND ( \"name\" ILIKE '%' || $2 || '%' ) " ++
    "LIMIT $3 OFFSET $4"

/-- A number, a null, another limit and another text make no difference. -/
theorem text_eq_of_alike_of_pets :
    ((⟨{}, [], none⟩ : Session).run (petsOf (.int 1) 5 "cat") []).events =
      [.entered, .executed ⟨petsSql, [.int 1, .text "cat", .int 5, .int 0]⟩, .committed] ∧
    ((⟨{}, [], none⟩ : Session).run (petsOf .null 7 "dog") []).events =
      [.entered, .executed ⟨petsSql, [.null, .text "dog", .int 7, .int 0]⟩, .committed] ∧
    Statement.SameText ⟨petsSql, [.int 1, .text "cat", .int 5, .int 0]⟩
      ⟨petsSql, [.null, .text "dog", .int 7, .int 0]⟩ := by
  have hevents : ((⟨{}, [], none⟩ : Session).run (petsOf (.int 1) 5 "cat") []).events =
      [.entered, .executed ⟨petsSql, [.int 1, .text "cat", .int 5, .int 0]⟩, .committed] := by
    rfl
  have hevents' : ((⟨{}, [], none⟩ : Session).run (petsOf .null 7 "dog") []).events =
      [.entered, .executed ⟨petsSql, [.null, .text "dog", .int 7, .int 0]⟩, .committed] := by
    rfl
  -- three settings differ: the filter in its values, the limit and the text
  have halike : Call.Alike (petsOf (.int 1) 5 "cat") (petsOf .null 7 "dog") := by
    refine .search "pets" ["name"] (.entries rfl rfl rfl rfl (.cons ?_ (.cons ?_ (.cons ?_ .nil))))
    · exact .filters rfl rfl
    · exact .limit rfl
    · exact .text (.inl rfl) ⟨"cat", rfl, rfl⟩ ⟨"dog", rfl, rfl⟩
  refine ⟨hevents, hevents', ?_⟩
  refine (text_eq_of_alike ⟨{}, [], none⟩).1 _ _ halike [] [] _ _ ?_ ?_
  · exact hevents ▸ List.mem_cons_of_mem _ List.mem_cons_self
  · exact hevents' ▸ List.mem_cons_of_mem _ List.mem_cons_self

end Session

end BoundSql
