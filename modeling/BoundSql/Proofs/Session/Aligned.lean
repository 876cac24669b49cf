import BoundSql.Proofs.Session.Draft

/-!
# Placeholders and parameters stay aligned

Every call on a table writes its statement part by part, each part with the placeholders behind
those of the parts before it, and sends the values in the same order. So the statement is the draft
of the call, and the placeholder of a number stands where the parameter of that number is meant to
be.

* `Session.exists_draft` — what is sent is drafted, one kind of call at a time;
* `Session.aligned_of_executed` — what is executed shows one placeholder for each of its parameters,
  in order.
-/

namespace BoundSql

open Sql (Draft)

/-- The table that a call reads or writes, for calls that build their statement. -/
def Call.table? {ε : Type} : Call ε → Option String
  | .getAll table _ _ | .get table _ _ _ | .search table _ _ | .insert table _ _
  | .bulkInsert table _ _ | .update table _ _ _ | .delete table _ _ => some table
  | .probe | .close | .query _ _ | .many _ _ | .one _ _ _ => none

namespace Session

open Sql.Draft

variable {ε : Type} {s : Session}

/-- **The clause of a filter** is its draft, behind the parameters bound before. -/
theorem clauseDraft_of_filter {offset : Nat} {v : Value} {r : Compiled}
    (h : (s.compiler.filter offset v).result = .ok r) :
    ∃ ns, (Node.ofFilters s.compiler.strict v).result = .ok ns ∧
      r.whereClause = (s.clauseDraft ns).text s.dialect.style offset ∧
      r.values = Node.values ns := by
  obtain ⟨bound, ns, hbound, hns, hrenders⟩ := Compiler.filter_renders h
  obtain rfl : offset = bound := Int.ofNat.inj hbound
  exact ⟨ns, hns, hrenders.draft.1, hrenders.values⟩

/-- The clauses and the page of a search are their drafts. -/
theorem clauseDraft_of_selectRaw {fields : List String} {data : Value} {r : Compiled}
    (h : (s.compiler.selectRaw { textFields := fields } data).result = .ok r) :
    ∃ sel ns, (Selection.read s.compiler.strict data).result = .ok sel ∧
      sel.effectiveNodes fields = .ok ns ∧
      r.whereClause = (s.clauseDraft ns).text s.dialect.style 0 ∧ r.values = Node.values ns ∧
      r.sortClause = s.compiler.sortClause sel.sort ∧
      r.limit = Compiler.countOr s.compiler.limit sel.limit ∧
      r.offset = Compiler.countOr 0 sel.offset := by
  obtain ⟨sel, hsel, hselect⟩ := s.compiler.select_of_selectRaw h
  obtain ⟨u, -, hassemble⟩ := Report.result_bind_eq_ok.mp hselect
  -- a search has no parameters in front of its clause
  have hbound : ({ textFields := fields } : Compilation).offset = (0 : Nat) := rfl
  obtain ⟨ns, hns, hrenders⟩ := Compiler.assemble_renders hbound hassemble
  obtain ⟨_, -, hmap⟩ := Report.result_bind_eq_ok.mp hassemble
  obtain ⟨clause, -, rfl⟩ := Report.result_map_eq_ok.mp hmap
  exact ⟨sel, ns, hsel, hns, hrenders.draft.1, hrenders.values, rfl, rfl, rfl⟩

/-- The rows of a plan are stored as drafted: in the columns of all rows, with what each row has
there. -/
theorem cells_of_rows (stored : List StoredRow) (columns : List String) :
    List.Forall₂ (fun row vs => List.Forall₂ (InsertPlan.Cell row) columns vs) stored
      (stored.map fun row => columns.map (InsertPlan.valueAt row)) := by
  rw [List.forall₂_map_right_iff, List.forall₂_same]
  intro row _
  rw [List.forall₂_map_right_iff, List.forall₂_same]
  exact fun column _ => InsertPlan.cell_valueAt row column

/-- One row is written as drafted. -/
theorem draft_of_insert (s : Session) (table : String) (row : StoredRow) (returning : Bool) :
    insertInto table (.ofStored s.dialect 0 row)
        ("(" ++ (InsertPlan.ofStored s.dialect 0 row).placeholders ++ ")") returning =
      ⟨sentence (texts s.dialect.style 0
          [.insertHead table (row.map (·.1)), .tuples [row.map (·.2)], .returned returning]),
        row.map (·.2)⟩ := by
  have htuples : text s.dialect.style 0 (tuples [row.map (·.2)]) =
      "VALUES " ++ ("(" ++ InsertPlan.placeholderText s.dialect 0 row.length ++ ")") := by
    rw [text_tuples 0 s.dialect row.length (by simp)]
    exact congrArg ("VALUES " ++ ·) String.intercalate_singleton
  simp [texts, text_insertHead, htuples, text_returned, insertInto, InsertPlan.ofStored]

/-- Many rows are written as drafted, as every row has a cell for each column. -/
theorem draft_of_bulkInsert (s : Session) (table : String) (stored : List StoredRow)
    (returning : Bool) :
    let cells := stored.map fun row =>
      (InsertPlan.sharedColumns stored).map (InsertPlan.valueAt row)
    insertInto table (.ofStoredRows s.dialect 0 stored)
        (InsertPlan.ofStoredRows s.dialect 0 stored).placeholders returning =
      ⟨sentence (texts s.dialect.style 0
          [.insertHead table (InsertPlan.sharedColumns stored), .tuples cells,
            .returned returning]),
        cells.flatten⟩ := by
  intro cells
  -- a column that a row lacks has a cell of its own, with nothing in it
  have hwidth : ∀ vs ∈ cells, vs.length = (InsertPlan.sharedColumns stored).length := by
    intro vs hvs
    obtain ⟨row, -, rfl⟩ := List.mem_map.mp hvs
    exact List.length_map _
  have htuples := text_tuples 0 s.dialect _ hwidth
  simp [texts, text_insertHead, htuples, text_returned, insertInto, InsertPlan.ofStoredRows, cells,
    List.flatMap_def]

/-- **What is sent is drafted.** -/
theorem exists_draft {call : Call ε} (hcall : call.table?.isSome) {stmt : Statement}
    {e : Expectation ε} (h : (s.prepare call).result = .ok (.send stmt e)) :
    ∃ ds params, s.Drafts call ds params ∧
      stmt = ⟨sentence (texts s.dialect.style 0 ds), params⟩ := by
  -- the parts of each kind of call are those of its draft, and each is written behind the values
  -- of the parts before it
  cases call with
  | probe => cases hcall
  | close => cases hcall
  | query sql values => cases hcall
  | many sql values => cases hcall
  | one sql values notSingle => cases hcall
  | getAll table v notSingle =>
    obtain ⟨r, hr, hstmt⟩ := Report.result_map_eq_ok.mp h
    obtain ⟨ns, hns, hwhere, hvalues⟩ := clauseDraft_of_filter hr
    cases hstmt
    refine ⟨_, _, .getAll table notSingle hns, ?_⟩
    rw [hwhere, hvalues]
    simp [texts, text_lead, selectFrom]
  | get table fields v notSingle =>
    obtain ⟨r, hr, hstmt⟩ := Report.result_map_eq_ok.mp h
    obtain ⟨ns, hns, hwhere, hvalues⟩ := clauseDraft_of_filter hr
    cases hstmt
    refine ⟨_, _, .get table fields notSingle hns, ?_⟩
    rw [hwhere, hvalues]
    simp [texts, text_projected, text_lead, selectFrom]
  | search table data fields =>
    obtain ⟨r, hr, hstmt⟩ := Report.result_map_eq_ok.mp h
    obtain ⟨sel, ns, hsel, hns, hwhere, hvalues, hsort, hlimit, hoffset⟩ :=
      clauseDraft_of_selectRaw hr
    cases hstmt
    refine ⟨_, _, .search table fields hsel hns, ?_⟩
    rw [hwhere, hvalues, hsort, hlimit, hoffset, ← Selection.values_effectiveNodes hns]
    simp [texts, text_lead, text_ordered, text_page, selectFrom]
  | insert table data returning =>
    obtain ⟨p, hp, hstmt⟩ := Report.except_map_eq_ok.mp h
    obtain ⟨row, hrow, rfl⟩ := Report.except_map_eq_ok.mp hp
    cases hstmt
    exact ⟨_, _, .insert table returning (storedAs_of_storedRow hrow),
      s.draft_of_insert table row returning⟩
  | bulkInsert table rows returning =>
    -- the placeholders of all rows are one part, as wide as the shared columns
    obtain ⟨p, hp, rfl⟩ := exists_plan_of_bulkInsert h
    obtain ⟨items, stored, hitems, hstored, rfl⟩ := InsertPlan.bulk_eq_ok hp
    obtain ⟨hnodup, hcolumns⟩ := InsertPlan.sharedColumns_spec stored
    have hrows := hstored.imp fun _ _ => storedAs_of_storedRow
    exact ⟨_, _, .bulkInsert table returning hitems hrows hnodup hcolumns (cells_of_rows stored _),
      s.draft_of_bulkInsert table stored returning⟩
  | update table data v allowAll =>
    obtain ⟨changes, r, hchanges, hr, rfl⟩ := exists_changes_of_update h
    obtain ⟨ns, hns, hwhere, hvalues⟩ := clauseDraft_of_filter (filter_of_writeFilter hr)
    refine ⟨_, _, .update table allowAll (storedAs_of_storedRow hchanges) hns, ?_⟩
    rw [hwhere, hvalues]
    simp [texts, text_lead, text_assigned]
  | delete table v allowAll =>
    obtain ⟨r, hr, hstmt⟩ := Report.result_map_eq_ok.mp h
    obtain ⟨ns, hns, hwhere, hvalues⟩ := clauseDraft_of_filter (filter_of_writeFilter hr)
    cases hstmt
    refine ⟨_, _, .delete table allowAll hns, ?_⟩
    rw [hwhere, hvalues]
    simp [texts, text_lead]

/-- **A statement is aligned** with the drafted parts of a call. -/
structure Aligned (s : Session) (call : Call ε) (stmt : Statement) (ds : List Draft) : Prop where
  /-- The parameters are the values of the call, in the order of its parts. -/
  drafts : s.Drafts call ds stmt.parameters
  /-- The draft has these values in place, from left to right. -/
  values : (Sql.Draft.sentence ds).values = stmt.parameters
  /-- The statement is the draft with placeholders for the values. -/
  sql : stmt.sql = (Sql.Draft.sentence ds).text s.dialect.style 0
  /-- The placeholders are numbered from one, one for each parameter. -/
  numbers : Sql.numbers ((Sql.Draft.sentence ds).numbered 0) =
    List.range' 1 stmt.parameters.length
  /-- Read by the lexical rules of SQL, the statement has these placeholders and no others. -/
  read : Sql.parameters (Sql.scan .between stmt.sql.toList) =
    Sql.Draft.placeholders s.dialect.style 0 stmt.parameters.length

/-- What is drafted can be read back, where patterns are matched with an operator that can be
read. -/
theorem Drafts.aligned (hd : Sql.IsOperator s.dialect.patternOperator) {call : Call ε}
    {ds : List Draft} {params : List Value} (h : s.Drafts call ds params) :
    s.Aligned call ⟨sentence (texts s.dialect.style 0 ds), params⟩ ds := by
  have hlegible := h.legible hd
  have hsql : sentence (texts s.dialect.style 0 ds) =
      (Sql.Draft.sentence ds).text s.dialect.style 0 :=
    (text_sentence s.dialect.style 0 fun d hd => (hlegible d hd).shown).symm
  have hvalues := h.values_eq
  -- nothing follows the whole statement
  have hread := reads_sentence (fun d hd => (hlegible d hd).reads) 0 [] fun _ hc => by cases hc
  rw [← hsql, hvalues, List.append_nil] at hread
  refine ⟨h, hvalues, hsql, ?_, hread.trans (List.append_nil _)⟩
  rw [numbers_numbered, hvalues]

/-- A store that a session is for matches patterns with an operator that can be read. -/
theorem isOperator_of_connect {name style : Value} {host database : Option String} {strict : Bool}
    {aliases : Aliases} {arrays : List String}
    (h : (connect name style host database strict aliases arrays).result = .ok s) :
    Sql.IsOperator s.dialect.patternOperator := by
  unfold connect at h
  cases hd : Dialect.resolve name style with
  | error e =>
    rw [hd] at h
    cases h
  | ok d =>
    rw [hd] at h
    cases h
    exact Dialect.isOperator_of_resolve hd

/-- **Statements and parameters are aligned.** In a session for any store, every call on a table
that reaches the driver is executed as it is drafted. The values the draft has in place are the
parameters, from left to right; the placeholders that stand for them are numbered from one, without
a gap and none twice, and no others are read in the statement. -/
theorem aligned_of_executed {name style : Value} {host database : Option String} {strict : Bool}
    {aliases : Aliases} {arrays : List String}
    (hs : (connect name style host database strict aliases arrays).result = .ok s)
    {call : Call ε} (hcall : call.table?.isSome) {replies : List Reply} {stmt : Statement}
    (h : .executed stmt ∈ (s.run call replies).events) : ∃ ds, s.Aligned call stmt ds := by
  obtain ⟨e, hsend⟩ := send_of_executed h
  obtain ⟨ds, params, hdrafts, rfl⟩ := exists_draft hcall hsend
  exact ⟨ds, hdrafts.aligned (isOperator_of_connect hs)⟩

/-- Gives pets another name and owner, in a table with a question mark in its name. -/
def renamePets : Call Unit :=
  .update "pets?" (.map [(.text "name", .text "Rex"), (.text "ownerId", .int 7)])
    (.map [(.text "kind", .text "dog"), (.text "id", .int 2)]) false

/-- The statement that does so. -/
def renameStatement : Statement :=
  ⟨"UPDATE \"pets?\" SET \"name\" = ?,\"owner_id\" = ? WHERE \"kind\" = ? AND \"id\" = ?",
    [.text "Rex", .int 7, .text "dog", .int 2]⟩

/-- The changes come before the filter, and a question mark in a name is no placeholder. -/
theorem aligned_of_executed_of_rename :
    (connect (.text "sqlite") (.text "qmark") none none false [] []).result =
      .ok ⟨{ dialect := .sqlite }, [], none⟩ ∧
    ((⟨{ dialect := .sqlite }, [], none⟩ : Session).run renamePets []).events =
      [.entered, .executed renameStatement, .committed] ∧
    (∃ ds, Session.Aligned ⟨{ dialect := .sqlite }, [], none⟩ renamePets renameStatement ds) ∧
    Sql.parameters (Sql.scan .between renameStatement.sql.toList) = [none, none, none, none] := by
  have hs : (connect (.text "sqlite") (.text "qmark") none none false [] []).result =
      .ok ⟨{ dialect := .sqlite }, [], none⟩ := by
    rfl
  have hevents : ((⟨{ dialect := .sqlite }, [], none⟩ : Session).run renamePets []).events =
      [.entered, .executed renameStatement, .committed] := by
    rfl
  -- the statement is the second of the three events
  have hexecuted : .executed renameStatement ∈
      ((⟨{ dialect := .sqlite }, [], none⟩ : Session).run renamePets []).events :=
    hevents ▸ List.mem_cons_of_mem _ List.mem_cons_self
  obtain ⟨ds, haligned⟩ := aligned_of_executed hs rfl hexecuted
  exact ⟨hs, hevents, ⟨ds, haligned⟩, haligned.read⟩

end Session

end BoundSql
