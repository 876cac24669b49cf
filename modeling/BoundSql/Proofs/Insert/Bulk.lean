import BoundSql.Proofs.Insert.Stored

/-!
# Plans of many rows

The columns, the placeholders and the values of a plan of many rows are built by three loops over
the same rows. They stay in step: over `m` columns the value of row `i` for column `j` has position
`i * m + j`, and so does its placeholder among those of the tuples.

* `InsertPlan.sharedColumns_eq_eraseDups` — the columns, in the order of their first appearance;
* `InsertPlan.tuples_eq` — the tuples of placeholders, numbered through;
* `InsertPlan.getElem?_cells` — the values, row by row;
* `InsertPlan.bulk_laidOut` — a plan of many rows as a whole.
-/

namespace BoundSql.InsertPlan

/-! ### Columns -/

/-- Columns are added behind those that are there, each where it appears first. -/
theorem addColumns_eq (columns more : List String) :
    addColumns columns more = columns ++ (more.removeAll columns).eraseDups := by
  induction more generalizing columns with
  | nil => exact (List.append_nil columns).symm
  | cons c more ih =>
    rw [addColumns, ih]
    cases hold : columns.contains c with
    | true =>
      have hmore : (c :: more).removeAll columns = more.removeAll columns := by
        rw [List.removeAll, List.filter_cons_of_neg (by simpa using hold), List.removeAll]
      rw [if_pos rfl, hmore]
    | false =>
      -- a column that is new is not added again by what comes behind it
      have hmore : (c :: more).removeAll columns = c :: more.removeAll columns := by
        rw [List.removeAll, List.filter_cons_of_pos (by simpa using hold), List.removeAll]
      have hbehind : more.removeAll (columns ++ [c]) =
          (more.removeAll columns).filter fun b => !b == c := by
        rw [List.removeAll, List.removeAll, List.filter_filter]
        refine List.filter_congr fun b _ => ?_
        simp [Bool.and_comm, beq_eq_decide]
      rw [if_neg Bool.false_ne_true, hmore, hbehind, List.eraseDups_cons, List.append_assoc]
      rfl

theorem addColumns_append (columns a b : List String) :
    addColumns columns (a ++ b) = addColumns (addColumns columns a) b := by
  induction a generalizing columns with
  | nil => rfl
  | cons c a ih => exact ih _

/-- **The columns of many rows** are those of all rows, one behind the other, each where it appears
first. -/
theorem sharedColumns_eq_eraseDups (rows : List StoredRow) :
    sharedColumns rows = (rows.flatMap fun row => row.map (·.1)).eraseDups := by
  -- adding row by row is adding all columns at once
  have hfold : ∀ columns : List String,
      rows.foldl (fun columns row => addColumns columns (row.map (·.1))) columns =
        addColumns columns (rows.flatMap fun row => row.map (·.1)) := by
    induction rows with
    | nil => exact fun columns => rfl
    | cons row rows ih =>
      intro columns
      rw [List.foldl_cons, ih, List.flatMap_cons, addColumns_append]
  have hall : ∀ columns : List String, columns.removeAll [] = columns := by
    intro columns
    exact List.filter_eq_self.mpr fun c _ => rfl
  rw [sharedColumns, hfold, addColumns_eq, List.nil_append, hall]

/-! ### Placeholders -/

/-- **The tuples of placeholders** of rows over `width` columns, numbered through. -/
theorem tuples_eq (d : Dialect) (offset : Int) (width rows : Nat) :
    tuples d offset width rows = (List.range rows).map fun i =>
      "(" ++ ",".intercalate ((List.range width).map fun j =>
        d.placeholder (offset + (i * width + j + 1 : Nat))) ++ ")" := by
  induction rows generalizing offset with
  | zero => rfl
  | succ rows ih =>
    rw [tuples, ih, List.range_succ_eq_map, List.map_cons, List.map_map, placeholderText]
    -- the numbers of a later row are those of the row in its place, moved by one row
    have hfirst : ∀ j : Nat, offset + ((0 * width + j + 1 : Nat) : Int) = offset + (j + 1) := by
      intro j
      omega
    have hlater : ∀ i j : Nat, offset + (((i + 1) * width + j + 1 : Nat) : Int) =
        offset + width + (i * width + j + 1 : Nat) := by
      intro i j
      rw [Nat.succ_mul]
      omega
    simp only [Function.comp_def, Nat.succ_eq_add_one, hfirst, hlater]

/-! ### Values -/

/-- The values of rows, each with `width` of them. -/
theorem getElem?_cells {α : Type} {f : α → List Value} {width : Nat}
    (hwidth : ∀ a, (f a).length = width) (rows : List α) (i : Nat) {j : Nat} (hj : j < width) :
    (rows.flatMap f)[i * width + j]? = rows[i]?.bind fun a => (f a)[j]? := by
  induction rows generalizing i with
  | nil => rfl
  | cons row rows ih =>
    rw [List.flatMap_cons]
    cases i with
    | zero =>
      rw [Nat.zero_mul, Nat.zero_add, List.getElem?_append_left ((hwidth row).symm ▸ hj)]
      rfl
    | succ i =>
      -- the values of the first row fill one width
      have hposition : (i + 1) * width + j = (f row).length + (i * width + j) := by
        rw [hwidth, Nat.succ_mul, Nat.add_comm (i * width) width, Nat.add_assoc]
      rw [hposition, List.getElem?_append_right (Nat.le_add_right _ _), Nat.add_sub_cancel_left,
        ih, List.getElem?_cons_succ]

theorem length_cells {α : Type} {f : α → List Value} {width : Nat}
    (hwidth : ∀ a, (f a).length = width) (rows : List α) :
    (rows.flatMap f).length = rows.length * width := by
  induction rows with
  | nil => exact (Nat.zero_mul width).symm
  | cons row rows ih =>
    rw [List.flatMap_cons, List.length_append, hwidth, ih, List.length_cons, Nat.succ_mul,
      Nat.add_comm]

/-! ### The plan -/

/-- **A plan over stored rows** that keeps every value in its row and its column. -/
structure LaidOut (d : Dialect) (offset : Int) (stored : List StoredRow) (p : InsertPlan) :
    Prop where
  /-- The columns are those of all rows in the order of their first appearance, -/
  columns : p.columns = (stored.flatMap fun row => row.map (·.1)).eraseDups
  /-- none of them twice. -/
  nodup : p.columns.Nodup
  /-- They are listed as identifiers in this order. -/
  columnList : p.columnList = ",".intercalate (p.columns.map Ident.quote)
  /-- There is one tuple for each row, with one placeholder for each column, numbered through. -/
  placeholders : p.placeholders = ",".intercalate ((List.range stored.length).map fun i =>
    "(" ++ ",".intercalate ((List.range p.columns.length).map fun j =>
      d.placeholder (offset + (i * p.columns.length + j + 1 : Nat))) ++ ")")
  /-- There are as many values as placeholders. -/
  length : p.values.length = stored.length * p.columns.length
  /-- At the position of a row and a column is what the row has there, or nothing. -/
  cell : ∀ {i : Nat} {row : StoredRow} {j : Nat} {column : String}, stored[i]? = some row →
    p.columns[j]? = some column →
    ∃ v, p.values[i * p.columns.length + j]? = some v ∧ Cell row column v
  /-- Whatever a row has stored is at the position of its column, which is the only one. -/
  provided : ∀ {i : Nat} {row : StoredRow} {column : String} {v : Value}, stored[i]? = some row →
    (column, v) ∈ row →
    ∃ j, p.columns[j]? = some column ∧ p.values[i * p.columns.length + j]? = some v ∧
      ∀ j', p.columns[j']? = some column → j' = j

theorem cell_eq_of_mem {row : StoredRow} (hnodup : (row.map (·.1)).Nodup) {column : String}
    {v w : Value} (h : (column, v) ∈ row) (hcell : Cell row column w) : w = v := by
  cases hcell with
  | stored hw =>
    obtain ⟨i, hi⟩ := List.getElem?_of_mem hw
    obtain ⟨j, hj⟩ := List.getElem?_of_mem h
    -- no column comes twice in a row, so the two stand in one place
    have hlt : i < (row.map (·.1)).length := by
      rw [List.length_map]
      exact (List.getElem?_eq_some_iff.mp hi).1
    have hcolumns : (row.map (·.1))[i]? = (row.map (·.1))[j]? := by
      rw [List.getElem?_map, List.getElem?_map, hi, hj]
      rfl
    obtain rfl := (List.getElem?_inj hlt hnodup).mp hcolumns
    exact congrArg Prod.snd (Option.some.inj (hi.symm.trans hj))
  | missing hmissing => exact absurd (List.mem_map_of_mem h) hmissing

/-- The plan of stored rows keeps every value in its row and its column. -/
theorem ofStoredRows_laidOut (d : Dialect) (offset : Int) {stored : List StoredRow}
    (hnodup : ∀ row ∈ stored, (row.map (·.1)).Nodup) :
    (ofStoredRows d offset stored).LaidOut d offset stored := by
  obtain ⟨hcolumns, hmem⟩ := sharedColumns_spec stored
  have hwidth : ∀ row : StoredRow,
      ((sharedColumns stored).map (valueAt row)).length = (sharedColumns stored).length :=
    fun row => List.length_map _
  -- what the values have at the position of a row and a column decides both of the last fields
  have hcell : ∀ {i : Nat} {row : StoredRow} {j : Nat} {column : String},
      stored[i]? = some row → (sharedColumns stored)[j]? = some column →
      (ofStoredRows d offset stored).values[i * (sharedColumns stored).length + j]? =
        some (valueAt row column) := by
    intro i row j column hrow hcolumn
    have hj : j < (sharedColumns stored).length := (List.getElem?_eq_some_iff.mp hcolumn).1
    show (stored.flatMap _)[_]? = _
    rw [getElem?_cells hwidth stored i hj, hrow, Option.bind_some, List.getElem?_map, hcolumn]
    rfl
  refine ⟨sharedColumns_eq_eraseDups stored, hcolumns, rfl, ?_, length_cells hwidth stored, ?_, ?_⟩
  · exact congrArg (",".intercalate ·) (tuples_eq d offset _ _)
  · intro i row j column hrow hcolumn
    exact ⟨_, hcell hrow hcolumn, cell_valueAt row column⟩
  · -- a column of the row is one of all, and it has one position only
    intro i row column v hrow hv
    have hrowmem : row ∈ stored := List.mem_of_getElem? hrow
    have hcolumn : column ∈ sharedColumns stored :=
      (hmem column).mpr ⟨row, hrowmem, List.mem_map_of_mem hv⟩
    obtain ⟨j, hj⟩ := List.getElem?_of_mem hcolumn
    refine ⟨j, hj, ?_, fun j' hj' => ?_⟩
    · have hvalue := cell_eq_of_mem (hnodup row hrowmem) hv (cell_valueAt row column)
      rw [← hvalue]
      exact hcell hrow hj
    · have hlt : j' < (sharedColumns stored).length := (List.getElem?_eq_some_iff.mp hj').1
      exact (List.getElem?_inj hlt hcolumns).mp (hj'.trans hj.symm)

/-- Rows that are stored one by one are stored together. -/
theorem storedRows_of_forall₂ {arrays : List String} {items : List Value} {rows : List StoredRow}
    (h : List.Forall₂ (fun item row => storedRow arrays item = .ok row) items rows) :
    storedRows arrays items = .ok rows := by
  induction h with
  | nil => rfl
  | cons hrow _ ih =>
    rw [storedRows, hrow, ih]
    rfl

/-- **Plans of many rows are aligned.** Where rows of any shapes have a plan, in any dialect and
behind any parameters:

* every row is a mapping whose entries are stored one by one, those that are not set left out;
* the columns are those of all rows in the order of their first appearance, and listed so;
* over `m` columns, what row `i` has for column `j`, or nothing if it has none, is the value at
  position `i * m + j`, and the placeholder at that position is numbered to match;
* whatever is set in a row is bound once, in that row and in the column that its key names.
-/
theorem bulk_laidOut {d : Dialect} {offset : Int} {arrays : List String} {rows : Value}
    {p : InsertPlan} (h : bulk d offset arrays true rows = .ok p) :
    ∃ items stored, rows.items? = some items ∧ storedRows arrays items = .ok stored ∧
      List.Forall₂ (StoredAs arrays) items stored ∧ p.LaidOut d offset stored := by
  obtain ⟨items, stored, hitems, hrows, rfl⟩ := bulk_eq_ok h
  have hstored : List.Forall₂ (StoredAs arrays) items stored :=
    hrows.imp fun _ _ => storedAs_of_storedRow
  have hnodup : ∀ row ∈ stored, (row.map (·.1)).Nodup := by
    intro row hrow
    obtain ⟨item, hitem⟩ := exists_of_mem_right hstored hrow
    exact hitem.nodup
  exact ⟨items, stored, hitems, storedRows_of_forall₂ hrows, hstored,
    ofStoredRows_laidOut d offset hnodup⟩

/-- Three rows: one with an entry that is not set, one with its columns in another order and
spelling, and one without entries. -/
def raggedRows : Value :=
  .list [.map [(.text "ownerId", .int 1), (.text "name", .unset)],
    .map [(.text "tags", .list [.text "a b"]), (.text "name", .text "Rex"),
      (.text "owner_id", .int 2)],
    .map []]

/-- The plan of the three rows behind three parameters. -/
def raggedPlan : InsertPlan :=
  ⟨["owner_id", "tags", "name"], "\"owner_id\",\"tags\",\"name\"",
    "($4,$5,$6),($7,$8,$9),($10,$11,$12)",
    [.int 1, .null, .null, .int 2, .text "\x7b\"a b\"\x7d", .text "Rex", .null, .null, .null]⟩

/-- What the three rows are stored as. -/
def raggedStored : List StoredRow :=
  [[("owner_id", .int 1)],
    [("tags", .text "\x7b\"a b\"\x7d"), ("name", .text "Rex"), ("owner_id", .int 2)], []]

/-- The owner in the second row is stored last there, and bound in the column of the first row. -/
theorem bulk_laidOut_of_ragged :
    bulk .postgres 3 ["tags"] true raggedRows = .ok raggedPlan ∧
    raggedPlan.LaidOut .postgres 3 raggedStored ∧
    ∃ j, raggedPlan.columns[j]? = some "owner_id" ∧
      raggedPlan.values[1 * raggedPlan.columns.length + j]? = some (.int 2) ∧
      ∀ j', raggedPlan.columns[j']? = some "owner_id" → j' = j := by
  have hbulk : bulk .postgres 3 ["tags"] true raggedRows = .ok raggedPlan := by
    rfl
  obtain ⟨items, stored, hitems, hrows, -, hplan⟩ := bulk_laidOut hbulk
  obtain rfl : _ = items := Option.some.inj hitems
  obtain rfl : raggedStored = stored := Except.ok.inj hrows
  -- the last of the three entries of the second row
  have howner : ("owner_id", .int 2) ∈ raggedStored[1] :=
    List.mem_cons_of_mem _ (List.mem_cons_of_mem _ List.mem_cons_self)
  exact ⟨hbulk, hplan, hplan.provided rfl howner⟩

end BoundSql.InsertPlan
