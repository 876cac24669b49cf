import BoundSql.Proofs.Clause.Draft
import BoundSql.Proofs.Clause.FreeText
import BoundSql.Proofs.Insert.Stored
import BoundSql.Proofs.Session.Run

/-!
# Drafts of calls

What the statement of a call is to say, with every value in the place it is meant for: the clause of
the filter with the values of its leaves, assignments and tuples with what is stored of a row, and
at the end of a search its limit and offset.

The parts of statements come first, each with its values, its text and what is read of it.

* `Session.Drafts` — the draft of a call, and its values from left to right;
* `Session.Drafts.values_eq` — these are the values in the draft;
* `Session.Drafts.legible` — its parts show their placeholders and no others.
-/

namespace BoundSql

open Sql (Draft)

/-! ### The parts of statements -/

namespace Sql.Draft

variable {style : PlaceholderStyle} (bound : Nat)

/-- A keyword with a table behind it. -/
def lead (keyword table : String) : Draft := [.verbatim keyword, .verbatim (Ident.quote table)]

/-- Names divided by commas. -/
def names (columns : List String) : Draft :=
  commas (columns.map fun c => [.verbatim (Ident.quote c)])

/-- The columns of a table as a projection. -/
def projected (table : String) (fields : List String) : Draft :=
  .verbatim "SELECT " :: commas (fields.map fun f =>
    [.verbatim (Ident.quote table), .verbatim ".", .verbatim (Ident.quote (Ident.snakeCase f))])

/-- The order of a search. -/
def ordered (aliases : Aliases) : Option SortKey → Draft
  | none => []
  | some s =>
    [.verbatim "ORDER BY ", .verbatim (Column.resolve s.key aliases).sql, .verbatim " ",
      .verbatim s.direction.keyword]

/-- The page of a search. -/
def page (limit offset : Value) : Draft :=
  [.verbatim "LIMIT ", .bound limit, .verbatim " OFFSET ", .bound offset]

/-- The head of an `INSERT`: the table and the columns. -/
def insertHead (table : String) (columns : List String) : Draft :=
  lead "INSERT INTO " table ++ .verbatim " (" :: (names columns ++ [.verbatim ")"])

/-- Values between parentheses. -/
def tuple (vs : List Value) : Draft :=
  .verbatim "(" :: (commas (vs.map fun v => [.bound v]) ++ [.verbatim ")"])

/-- The rows of an `INSERT`. -/
def tuples (rows : List (List Value)) : Draft := .verbatim "VALUES " :: commas (rows.map tuple)

/-- The end of an `INSERT` that asks for its rows. -/
def returned (returning : Bool) : Draft := if returning then [.verbatim "RETURNING *"] else []

/-- The assignments of an `UPDATE`. -/
def assigned (changes : StoredRow) : Draft :=
  .verbatim "SET " :: commas (changes.map fun change =>
    [.verbatim (Ident.quote change.1), .verbatim " = ", .bound change.2])

/-! ### Their values -/

@[simp] theorem values_lead (keyword table : String) : values (lead keyword table) = [] := rfl

@[simp] theorem values_names (columns : List String) : values (names columns) = [] := by
  simp [names, commas, values_divided, List.flatMap_map]

@[simp] theorem values_projected (table : String) (fields : List String) :
    values (projected table fields) = [] := by
  simp [projected, commas, values_divided, List.flatMap_map]

@[simp] theorem values_ordered (aliases : Aliases) (sort : Option SortKey) :
    values (ordered aliases sort) = [] := by
  cases sort <;> rfl

@[simp] theorem values_page (limit offset : Value) :
    values (page limit offset) = [limit, offset] := rfl

@[simp] theorem values_insertHead (table : String) (columns : List String) :
    values (insertHead table columns) = [] := by
  simp [insertHead, values_append]

@[simp] theorem values_tuple (vs : List Value) : values (tuple vs) = vs := by
  simp [tuple, commas, values_append, values_divided, List.flatMap_map]

@[simp] theorem values_tuples (rows : List (List Value)) : values (tuples rows) = rows.flatten := by
  simp [tuples, commas, values_divided, List.flatMap_map]

@[simp] theorem values_returned (returning : Bool) : values (returned returning) = [] := by
  cases returning <;> rfl

@[simp] theorem values_assigned (changes : StoredRow) :
    values (assigned changes) = changes.map (·.2) := by
  simp [assigned, commas, values_divided, List.flatMap_map, ← List.map_eq_flatMap]

@[simp] theorem values_filtered (d : Draft) : values (filtered d) = values d := by
  cases d <;> rfl

/-! ### Their texts -/

theorem text_lead (keyword table : String) :
    text style bound (lead keyword table) = keyword ++ Ident.quote table := by
  simp [lead]

/-- Drafts without values have the same texts wherever they stand. -/
theorem texts_map {α : Type} {f : α → Draft} {g : α → String}
    (h : ∀ a, values (f a) = [] ∧ ∀ bound, text style bound (f a) = g a) (as : List α) :
    texts style bound (as.map f) = as.map g := by
  induction as with
  | nil => rfl
  | cons a as ih =>
    rw [List.map_cons, texts, (h a).1, (h a).2]
    exact congrArg _ ih

theorem text_names (columns : List String) :
    text style bound (names columns) = InsertPlan.columnText columns := by
  rw [names, commas, text_divided, InsertPlan.columnText]
  exact congrArg _ (texts_map bound (fun c => ⟨rfl, fun bound => by simp⟩) columns)

theorem text_projected (table : String) (fields : List String) :
    text style bound (projected table fields) =
      "SELECT " ++ FieldList.select table none fields := by
  have hcolumn : ∀ f bound, text style bound [.verbatim (Ident.quote table), .verbatim ".",
      .verbatim (Ident.quote (Ident.snakeCase f))] = FieldList.column table none f := by
    intro f bound
    simp [FieldList.column, FieldList.sourceOf, String.append_assoc]
  rw [projected, text_verbatim_cons, commas, text_divided, FieldList.select,
    texts_map bound fun f => ⟨rfl, hcolumn f⟩]

theorem text_ordered (c : Compiler) (sort : Option SortKey) :
    text style bound (ordered c.aliases sort) = c.sortClause sort := by
  cases sort with
  | none => rfl
  | some s => simp [ordered, Compiler.sortClause, String.append_assoc]

theorem text_page (d : Dialect) (limit offset : Value) :
    text d.style bound (page limit offset) = Session.pageClause d bound := by
  simp [page, Session.pageClause, Dialect.placeholder, String.append_assoc, Int.add_assoc]

theorem text_insertHead (table : String) (columns : List String) :
    text style bound (insertHead table columns) =
      "INSERT INTO " ++ Ident.quote table ++ " (" ++ InsertPlan.columnText columns ++ ")" := by
  simp [insertHead, lead, text_append, text_names, String.append_assoc]

/-- Values have the placeholders behind those bound before. -/
theorem texts_bound (vs : List Value) :
    texts style bound (vs.map fun v => [.bound v]) =
      (List.range vs.length).map fun (i : Nat) => style.placeholder ((bound : Int) + (i + 1)) := by
  induction vs generalizing bound with
  | nil => rfl
  | cons v vs ih =>
    -- the first takes the next number, and the others go on behind it
    have hnext : ∀ i : Nat, style.placeholder (((bound + 1 : Nat) : Int) + (i + 1)) =
        style.placeholder ((bound : Int) + ((i + 1 : Nat) + 1)) := by
      intro i
      congr 1
      omega
    have hrest : texts style (bound + 1) (vs.map fun v => [.bound v]) =
        ((List.range vs.length).map Nat.succ).map
          fun (i : Nat) => style.placeholder ((bound : Int) + (i + 1)) := by
      rw [ih, List.map_map]
      exact List.map_congr_left fun i _ => hnext i
    rw [List.length_cons, List.range_succ_eq_map, List.map_cons, List.map_cons, texts, ← hrest]
    simp

theorem text_tuple (d : Dialect) (vs : List Value) :
    text d.style bound (tuple vs) =
      "(" ++ InsertPlan.placeholderText d bound vs.length ++ ")" := by
  simp only [tuple, commas, text_verbatim_cons, text_append, text_divided, texts_bound, text_nil,
    String.append_empty, String.append_assoc]
  rfl

theorem text_tuples (d : Dialect) (width : Nat) {rows : List (List Value)}
    (h : ∀ vs ∈ rows, vs.length = width) :
    text d.style bound (tuples rows) =
      "VALUES " ++ ",".intercalate (InsertPlan.tuples d bound width rows.length) := by
  have htexts : texts d.style bound (rows.map tuple) =
      InsertPlan.tuples d bound width rows.length := by
    induction rows generalizing bound with
    | nil => rfl
    | cons vs rows ih =>
      have hrows := ih (bound + width) fun vs hvs => h vs (List.mem_cons_of_mem _ hvs)
      rw [List.map_cons, texts, text_tuple, values_tuple, h vs List.mem_cons_self, hrows]
      rfl
  rw [tuples, text_verbatim_cons, commas, text_divided, htexts]

theorem text_assigned (d : Dialect) (changes : StoredRow) :
    text d.style 0 (assigned changes) =
      "SET " ++ Session.assignments d (changes.map (·.1)) := by
  -- the changes are numbered one by one, from whichever number they begin with
  have htexts (bound : Nat) : texts d.style bound (changes.map fun change =>
      [.verbatim (Ident.quote change.1), .verbatim " = ", .bound change.2]) =
        Session.assignmentsFrom d (bound + 1) (changes.map (·.1)) := by
    induction changes generalizing bound with
    | nil => rfl
    | cons change changes ih =>
      have hone : text d.style bound
          [.verbatim (Ident.quote change.1), .verbatim " = ", .bound change.2] =
            Ident.quote change.1 ++ " = " ++ d.placeholder (bound + 1 : Nat) := by
        simp [Dialect.placeholder, String.append_assoc]
      rw [List.map_cons, texts, hone]
      exact congrArg _ (ih (bound + 1))
  rw [assigned, text_verbatim_cons, commas, text_divided, htexts]
  rfl

theorem text_returned (returning : Bool) :
    text style bound (returned returning) = Session.returningClause returning := by
  cases returning <;> rfl

/-! ### What is read of them -/

theorem reads_lead {keyword : String} (h : Silent (fun _ => True) keyword) (table : String) :
    Reads style Breaks (lead keyword table) :=
  ((reads_name table).mono fun _ => Breaks.head_ne).verbatim_cons h

theorem legible_lead {keyword : String} (hne : keyword ≠ "")
    (h : Silent (fun _ => True) keyword) (table : String) : Legible style (lead keyword table) :=
  ⟨shown_verbatim_cons hne _, (reads_lead h table).mono fun _ => Breaks.of_clear⟩

theorem legible_star : Legible style [.verbatim "SELECT *"] := by
  refine ⟨shown_verbatim_cons (by decide) _, reads_verbatim fun rest hrest => ?_⟩
  rcases clear_cases hrest with rfl | ⟨rest, rfl⟩
  · rfl
  · rfl

theorem legible_projected (table : String) (fields : List String) :
    Legible style (projected table fields) := by
  have hcolumns : Reads style Breaks (commas (fields.map fun f =>
      [.verbatim (Ident.quote table), .verbatim ".",
        .verbatim (Ident.quote (Ident.snakeCase f))])) := by
    -- a column is a name, a point and a name
    refine reads_commas fun d hd => ?_
    obtain ⟨f, -, rfl⟩ := List.mem_map.mp hd
    have hfield : Reads style Breaks [.verbatim (Ident.quote (Ident.snakeCase f))] :=
      (reads_name _).mono fun _ => Breaks.head_ne
    exact (reads_name table).append_verbatim (fun _ h => absurd (Option.some.inj h) (by decide))
      (fun _ _ => rfl) hfield
  exact legible_verbatim_cons (by decide) (fun _ _ => rfl)
    (hcolumns.mono fun _ => Breaks.of_clear)

/-- The column of a path shows no placeholders. -/
theorem reads_column (path : String) (aliases : Aliases) :
    Reads style Clear [.verbatim (Column.resolve path aliases).sql] := by
  refine reads_verbatim fun rest hrest => ?_
  rw [← Column.sql_shown, scan_column (Column.shown_table_ne _) (Breaks.of_clear hrest).head_ne,
    parameters_append, parameters_columnLexemes]
  rfl

theorem legible_ordered (aliases : Aliases) (sort : Option SortKey) :
    Legible style (ordered aliases sort) := by
  cases sort with
  | none => exact legible_nil
  | some s =>
    -- what follows the direction begins with a space, if there is anything
    have hdirection : Reads style Clear [.verbatim s.direction.keyword] := by
      refine reads_verbatim fun rest hrest => ?_
      rcases clear_cases hrest with rfl | ⟨rest, rfl⟩
      · cases s.direction <;> rfl
      · cases s.direction <;> rfl
    exact legible_verbatim_cons (by decide) (fun _ _ => rfl)
      ((reads_column s.key aliases).append_verbatim clear_blank (fun _ _ => rfl) hdirection)

theorem legible_page (limit offset : Value) : Legible style (page limit offset) := by
  have hpage : Reads style Breaks [.bound limit, .verbatim " OFFSET ", .bound offset] :=
    (reads_bound limit).append_verbatim (fun _ => Breaks.of_clear (clear_blank _)) (fun _ _ => rfl)
      (reads_bound offset)
  exact legible_verbatim_cons (by decide) (fun _ _ => rfl) (hpage.mono fun _ => Breaks.of_clear)

theorem legible_insertHead (table : String) (columns : List String) :
    Legible style (insertHead table columns) := by
  have hnames : Reads style Breaks (names columns) := by
    refine reads_commas fun d hd => ?_
    obtain ⟨c, -, rfl⟩ := List.mem_map.mp hd
    exact (reads_name c).mono fun _ => Breaks.head_ne
  have hcolumns : Reads style Clear (names columns ++ [.verbatim ")"]) :=
    hnames.append_verbatim breaks_closing (fun _ _ => rfl) reads_nil
  exact ⟨shown_verbatim_cons (by decide) _, (reads_lead (fun _ _ => rfl) table).append_verbatim
    (fun _ => Breaks.of_clear (clear_blank _)) (fun _ _ => rfl) hcolumns⟩

theorem reads_tuple (vs : List Value) : Reads style Breaks (tuple vs) := by
  have hvalues : Reads style Breaks (commas (vs.map fun v => [.bound v])) := by
    refine reads_commas fun d hd => ?_
    obtain ⟨v, -, rfl⟩ := List.mem_map.mp hd
    exact reads_bound v
  exact (hvalues.append_verbatim breaks_closing (fun _ _ => rfl) reads_nil).verbatim_cons
    fun _ _ => rfl

theorem legible_tuples (rows : List (List Value)) : Legible style (tuples rows) := by
  have hrows : Reads style Breaks (commas (rows.map tuple)) := by
    refine reads_commas fun d hd => ?_
    obtain ⟨vs, -, rfl⟩ := List.mem_map.mp hd
    exact reads_tuple vs
  exact legible_verbatim_cons (by decide) (fun _ _ => rfl) (hrows.mono fun _ => Breaks.of_clear)

theorem legible_returned (returning : Bool) : Legible style (returned returning) := by
  cases returning with
  | false => exact legible_nil
  | true =>
    refine ⟨shown_verbatim_cons (by decide) _, reads_verbatim fun rest hrest => ?_⟩
    rcases clear_cases hrest with rfl | ⟨rest, rfl⟩
    · rfl
    · rfl

theorem legible_assigned (changes : StoredRow) : Legible style (assigned changes) := by
  have hchanges : Reads style Breaks (commas (changes.map fun change =>
      [.verbatim (Ident.quote change.1), .verbatim " = ", .bound change.2])) := by
    refine reads_commas fun d hd => ?_
    obtain ⟨change, -, rfl⟩ := List.mem_map.mp hd
    exact (reads_name _).append_verbatim (fun _ h => absurd (Option.some.inj h) (by decide))
      (fun _ _ => rfl) (reads_bound _)
  exact legible_verbatim_cons (by decide) (fun _ _ => rfl)
    (hchanges.mono fun _ => Breaks.of_clear)

theorem legible_filtered {d : Draft} (h : Reads style Clear d) : Legible style (filtered d) := by
  cases d with
  | nil => exact legible_nil
  | cons p d => exact legible_verbatim_cons (by decide) (fun _ _ => rfl) h

end Sql.Draft

/-! ### Calls -/

namespace Session

variable {ε : Type}

/-- The draft of the clause of nodes. -/
def clauseDraft (s : Session) (ns : List Node) : Draft :=
  .filtered (Node.draft s.dialect s.compiler.aliases true ns)

@[simp] theorem values_clauseDraft (s : Session) (ns : List Node) :
    (s.clauseDraft ns).values = Node.values ns := by
  rw [clauseDraft, Sql.Draft.values_filtered, Node.values_draft]

/-- **The draft of a call**, part by part, and its values from left to right. -/
inductive Drafts (s : Session) : Call ε → List Draft → List Value → Prop where
  /-- The values of the leaves that are kept. -/
  | getAll (table : String) {v : Value} (e : Option ε) {ns : List Node}
      (hns : (Node.ofFilters s.compiler.strict v).result = .ok ns) :
      Drafts s (.getAll table v e)
        [[.verbatim "SELECT *"], .lead "FROM " table, s.clauseDraft ns]
        (Node.values ns)
  | get (table : String) (fields : List String) {v : Value} (e : Option ε) {ns : List Node}
      (hns : (Node.ofFilters s.compiler.strict v).result = .ok ns) :
      Drafts s (.get table fields v e)
        [.projected table fields, .lead "FROM " table, s.clauseDraft ns]
        (Node.values ns)
  /-- The values of the leaves that are kept, then the text to search for, once for each field, then
  the limit and the offset. -/
  | search (table : String) {data : Value} (fields : List String) {sel : Selection} {ns : List Node}
      (hsel : (Selection.read s.compiler.strict data).result = .ok sel)
      (hns : sel.effectiveNodes fields = .ok ns) :
      Drafts s (.search table data fields)
        [[.verbatim "SELECT *"], .lead "FROM " table, s.clauseDraft ns,
          .ordered s.compiler.aliases sel.sort,
          .page (Compiler.countOr s.compiler.limit sel.limit) (Compiler.countOr 0 sel.offset)]
        (Node.values sel.nodes ++ sel.searchValues fields ++
          [Compiler.countOr s.compiler.limit sel.limit, Compiler.countOr 0 sel.offset])
  /-- What is stored of the row. -/
  | insert (table : String) {data : Value} (returning : Bool) {row : StoredRow}
      (hrow : StoredAs s.arrays data row) :
      Drafts s (.insert table data returning)
        [.insertHead table (row.map (·.1)), .tuples [row.map (·.2)], .returned returning]
        (row.map (·.2))
  /-- What is stored of the rows, row by row, each in the order of the columns. -/
  | bulkInsert (table : String) {rows : Value} (returning : Bool) {items : List Value}
      {stored : List StoredRow} {columns : List String} {cells : List (List Value)}
      (hitems : rows.items? = some items) (hstored : List.Forall₂ (StoredAs s.arrays) items stored)
      (hnodup : columns.Nodup) (hcolumns : ∀ c, c ∈ columns ↔ ∃ row ∈ stored, c ∈ row.map (·.1))
      (hcells : List.Forall₂ (fun row vs => List.Forall₂ (InsertPlan.Cell row) columns vs) stored
        cells) :
      Drafts s (.bulkInsert table rows returning)
        [.insertHead table columns, .tuples cells, .returned returning]
        cells.flatten
  /-- What is stored of the changes, then the values of the leaves that are kept. -/
  | update (table : String) {data v : Value} (allowAll : Bool) {changes : StoredRow}
      {ns : List Node} (hchanges : StoredAs s.arrays data changes)
      (hns : (Node.ofFilters s.compiler.strict v).result = .ok ns) :
      Drafts s (.update table data v allowAll)
        [.lead "UPDATE " table, .assigned changes, s.clauseDraft ns]
        (changes.map (·.2) ++ Node.values ns)
  | delete (table : String) {v : Value} (allowAll : Bool) {ns : List Node}
      (hns : (Node.ofFilters s.compiler.strict v).result = .ok ns) :
      Drafts s (.delete table v allowAll)
        [.lead "DELETE FROM " table, s.clauseDraft ns]
        (Node.values ns)

namespace Drafts

open Sql.Draft

variable {s : Session} {call : Call ε} {ds : List Draft} {params : List Value}

/-- **The values of a call** are those in its draft. -/
theorem values_eq (h : s.Drafts call ds params) : (Sql.Draft.sentence ds).values = params := by
  rw [values_sentence]
  cases h with
  | search table fields hsel hns => simp [Selection.values_effectiveNodes hns]
  | _ => simp

/-- **The parts of a call** can be read, whatever the values in them. -/
theorem legible (hd : Sql.IsOperator s.dialect.patternOperator) (h : s.Drafts call ds params) :
    ∀ d ∈ ds, d.Legible s.dialect.style := by
  -- a filter is legible for any nodes, and the fixed words hold no quote
  have hclause (ns : List Node) : (s.clauseDraft ns).Legible s.dialect.style :=
    legible_filtered (Node.reads_draft hd s.compiler.aliases true ns)
  have hfrom (table : String) : (lead "FROM " table).Legible s.dialect.style :=
    legible_lead (by decide) (fun _ _ => rfl) table
  cases h with
  | getAll table e _ =>
    simp only [List.forall_mem_cons]
    exact ⟨legible_star, hfrom table, hclause _, List.forall_mem_nil _⟩
  | get table fields e _ =>
    simp only [List.forall_mem_cons]
    exact ⟨legible_projected table fields, hfrom table, hclause _, List.forall_mem_nil _⟩
  | search table fields _ _ =>
    simp only [List.forall_mem_cons]
    exact ⟨legible_star, hfrom table, hclause _, legible_ordered _ _, legible_page _ _,
      List.forall_mem_nil _⟩
  | insert table returning _ =>
    simp only [List.forall_mem_cons]
    exact ⟨legible_insertHead table _, legible_tuples _, legible_returned returning,
      List.forall_mem_nil _⟩
  | bulkInsert table returning _ _ _ _ _ =>
    simp only [List.forall_mem_cons]
    exact ⟨legible_insertHead table _, legible_tuples _, legible_returned returning,
      List.forall_mem_nil _⟩
  | update table allowAll _ _ =>
    simp only [List.forall_mem_cons]
    exact ⟨legible_lead (by decide) (fun _ _ => rfl) table, legible_assigned _, hclause _,
      List.forall_mem_nil _⟩
  | delete table allowAll _ =>
    simp only [List.forall_mem_cons]
    exact ⟨legible_lead (by decide) (fun _ _ => rfl) table, hclause _, List.forall_mem_nil _⟩

end Drafts

end Session

end BoundSql
