import BoundSql.Proofs.Insert.Bulk

/-!
# Rows that must be complete

A plan of many rows has the columns of all of them, and a row that lacks one binds nothing there. If
rows must be complete the plan is refused instead, for the first row that lacks a column. The
columns of all rows are known before the first row is looked at, so an early row can lack a column
that only the last one has.

* `InsertPlan.firstIncomplete_eq_some_iff` — the row that is found by going over the rows once;
* `InsertPlan.ofStoredRows_bindsOwn` — where no row lacks a column nothing is filled in;
* `InsertPlan.bulk_of_complete_rows` — plans of rows that must be complete.
-/

namespace BoundSql.InsertPlan

/-! ### Columns that a row lacks -/

/-- The columns of rows that one of them lacks, in the order of their first appearance in the
rows. -/
def lacking (rows : List StoredRow) (row : StoredRow) : List String :=
  ((rows.flatMap fun other => other.map (·.1)).eraseDups).filter fun column =>
    column ∉ row.map (·.1)

/-- A row has every column that any of the rows has. -/
def Complete (rows : List StoredRow) (row : StoredRow) : Prop :=
  ∀ other ∈ rows, ∀ column ∈ other.map (·.1), column ∈ row.map (·.1)

/-- **Rows of different shapes**: one of them lacks a column that another has. -/
def Ragged (rows : List StoredRow) : Prop :=
  ∃ row ∈ rows, ∃ other ∈ rows, ∃ column ∈ other.map (·.1), column ∉ row.map (·.1)

/-- **The first row that lacks a column**: its position, and the columns it lacks. -/
structure FirstGap (rows : List StoredRow) (index : Nat) (missing : List String) : Prop where
  /-- The columns that are missing are all those that the row lacks, -/
  row : ∃ row, rows[index]? = some row ∧ missing = lacking rows row
  /-- which are some, -/
  lacks : missing ≠ []
  /-- while no row in front of it lacks any. -/
  earlier : ∀ i < index, ∀ row, rows[i]? = some row → Complete rows row

theorem lacking_eq_nil_iff {rows : List StoredRow} {row : StoredRow} :
    lacking rows row = [] ↔ Complete rows row := by
  simp only [lacking, Complete, List.filter_eq_nil_iff, List.mem_eraseDups, List.mem_flatMap,
    decide_eq_true_eq, not_not, forall_exists_index, and_imp]
  exact ⟨fun h other hother column hc => h column other hother hc,
    fun h column other hother hc => h other hother column hc⟩

/-- The columns a row lacks are found among the columns of all rows. -/
theorem missingColumns_sharedColumns (rows : List StoredRow) (row : StoredRow) :
    missingColumns (sharedColumns rows) row = lacking rows row := by
  rw [missingColumns, sharedColumns_eq_eraseDups, lacking]
  exact List.filter_congr fun column _ => by simp

theorem not_ragged_iff {rows : List StoredRow} :
    ¬ Ragged rows ↔ ∀ row ∈ rows, Complete rows row := by
  simp only [Ragged, Complete, not_exists, not_and, not_not]

/-! ### The first row that lacks a column -/

/-- All rows are complete where none is found. -/
theorem firstIncomplete_eq_none_iff {columns : List String} {index : Nat} {rows : List StoredRow} :
    firstIncomplete columns index rows = none ↔ ∀ row ∈ rows, missingColumns columns row = [] := by
  induction rows generalizing index with
  | nil => exact iff_of_true rfl (List.forall_mem_nil _)
  | cons row rows ih =>
    rw [firstIncomplete, List.forall_mem_cons, ← @ih (index + 1)]
    cases missingColumns columns row with
    | nil => simp
    | cons c missing => simp

/-- **The row that is found** is the first that lacks a column. -/
theorem firstIncomplete_eq_some_iff {columns missing : List String} {index found : Nat}
    {rows : List StoredRow} :
    firstIncomplete columns index rows = some (found, missing) ↔
      ∃ k row, found = index + k ∧ rows[k]? = some row ∧ missingColumns columns row = missing ∧
        missing ≠ [] ∧ ∀ i < k, ∀ r, rows[i]? = some r → missingColumns columns r = [] := by
  induction rows generalizing index with
  | nil => simp [firstIncomplete]
  | cons row rows ih =>
    rw [firstIncomplete]
    cases hrow : missingColumns columns row with
    | nil =>
      -- the row in front is complete, so what is found stands one position further on
      rw [List.isEmpty_nil, if_pos rfl, ih]
      constructor
      · rintro ⟨k, r, rfl, hr, hmissing, hne, hearlier⟩
        refine ⟨k + 1, r, by omega, hr, hmissing, hne, fun i hi s hs => ?_⟩
        cases i with
        | zero =>
          obtain rfl : row = s := Option.some.inj hs
          exact hrow
        | succ i => exact hearlier i (by omega) s hs
      · rintro ⟨k, r, hfound, hr, hmissing, hne, hearlier⟩
        cases k with
        | zero =>
          obtain rfl : row = r := Option.some.inj hr
          exact absurd (hmissing.symm.trans hrow) hne
        | succ k =>
          refine ⟨k, r, by omega, hr, hmissing, hne, fun i hi s hs => ?_⟩
          exact hearlier (i + 1) (by omega) s hs
    | cons c more =>
      -- the row in front lacks a column, so no other is looked at
      have hlacks : (c :: more).isEmpty = false := rfl
      rw [hlacks, if_neg Bool.false_ne_true]
      constructor
      · intro h
        obtain ⟨rfl, rfl⟩ := Prod.mk.inj (Option.some.inj h)
        exact ⟨0, row, rfl, rfl, hrow, List.cons_ne_nil c more, fun i hi => nomatch hi⟩
      · rintro ⟨k, r, rfl, hr, rfl, hne, hearlier⟩
        cases k with
        | zero =>
          obtain rfl : row = r := Option.some.inj hr
          rw [hrow]
          rfl
        | succ k =>
          have hcomplete := hearlier 0 (by omega) row rfl
          rw [hrow] at hcomplete
          cases hcomplete

/-- Over the columns of all rows, the row that is found is the first that lacks any of them. -/
theorem firstIncomplete_iff_firstGap {rows : List StoredRow} {index : Nat}
    {missing : List String} :
    firstIncomplete (sharedColumns rows) 0 rows = some (index, missing) ↔
      FirstGap rows index missing := by
  rw [firstIncomplete_eq_some_iff]
  simp only [missingColumns_sharedColumns, lacking_eq_nil_iff]
  constructor
  · rintro ⟨k, row, hindex, hrow, rfl, hne, hearlier⟩
    obtain rfl : index = k := hindex.trans (Nat.zero_add k)
    exact ⟨⟨row, hrow, rfl⟩, hne, hearlier⟩
  · rintro ⟨⟨row, hrow, rfl⟩, hne, hearlier⟩
    exact ⟨index, row, (Nat.zero_add index).symm, hrow, rfl, hne, hearlier⟩

theorem firstIncomplete_eq_none_iff_not_ragged {rows : List StoredRow} :
    firstIncomplete (sharedColumns rows) 0 rows = none ↔ ¬ Ragged rows := by
  rw [firstIncomplete_eq_none_iff, not_ragged_iff]
  simp only [missingColumns_sharedColumns, lacking_eq_nil_iff]

/-- There is a first row that lacks a column where there is any. -/
theorem exists_firstGap_iff {rows : List StoredRow} :
    (∃ index missing, FirstGap rows index missing) ↔ Ragged rows := by
  simp only [← firstIncomplete_iff_firstGap]
  rw [← not_iff_not, ← firstIncomplete_eq_none_iff_not_ragged, Option.eq_none_iff_forall_ne_some]
  simp

/-! ### Values of complete rows -/

/-- **Every value stands in the tuple of a row and in a column.** -/
theorem LaidOut.exists_cell {d : Dialect} {offset : Int} {stored : List StoredRow}
    {p : InsertPlan} (h : p.LaidOut d offset stored) {k : Nat} {v : Value}
    (hk : p.values[k]? = some v) :
    ∃ i j row column, k = i * p.columns.length + j ∧ stored[i]? = some row ∧
      p.columns[j]? = some column ∧ Cell row column v := by
  -- the position of the value is that of a row and a column
  have hlt : k < stored.length * p.columns.length :=
    h.length ▸ (List.getElem?_eq_some_iff.mp hk).1
  have hwidth : 0 < p.columns.length := Nat.pos_of_mul_pos_left (Nat.zero_lt_of_lt hlt)
  have hi : k / p.columns.length < stored.length := (Nat.div_lt_iff_lt_mul hwidth).mpr hlt
  have hj : k % p.columns.length < p.columns.length := Nat.mod_lt k hwidth
  have hposition : k = k / p.columns.length * p.columns.length + k % p.columns.length :=
    (Nat.div_add_mod' k _).symm
  have hrow := List.getElem?_eq_getElem hi
  have hcolumn := List.getElem?_eq_getElem hj
  obtain ⟨w, hw, hcell⟩ := h.cell hrow hcolumn
  rw [← hposition, hk] at hw
  obtain rfl : v = w := Option.some.inj hw
  exact ⟨_, _, _, _, hposition, hrow, hcolumn, hcell⟩

/-- **Nothing is filled in**: whatever is bound, be it nothing, is what an entry of the row in whose
tuple it stands is stored as, in the column that the entry names. -/
def BindsOwn (arrays : List String) (items : List Value) (p : InsertPlan) : Prop :=
  ∀ k v, p.values[k]? = some v → ∃ i j es e column, k = i * p.columns.length + j ∧
    items[i]? = some (.map es) ∧ e ∈ setEntries es ∧ p.columns[j]? = some column ∧
    Stores arrays e (column, v)

/-- **The plan of complete rows** binds nothing but what the rows have. -/
theorem ofStoredRows_bindsOwn (d : Dialect) (offset : Int) {arrays : List String}
    {items : List Value} {stored : List StoredRow}
    (hstored : List.Forall₂ (StoredAs arrays) items stored) (hragged : ¬ Ragged stored) :
    (ofStoredRows d offset stored).BindsOwn arrays items := by
  have hnodup : ∀ row ∈ stored, (row.map (·.1)).Nodup := by
    intro row hrow
    obtain ⟨item, hitem⟩ := exists_of_mem_right hstored hrow
    exact hitem.nodup
  intro k v hk
  obtain ⟨i, j, row, column, hposition, hrow, hcolumn, hcell⟩ :=
    (ofStoredRows_laidOut d offset hnodup).exists_cell hk
  -- the row lacks no column, so the value is stored in it
  have hown : (column, v) ∈ row := by
    cases hcell with
    | stored h => exact h
    | missing h =>
      obtain ⟨other, hother, hc⟩ :=
        ((sharedColumns_spec stored).2 column).mp (List.mem_of_getElem? hcolumn)
      have hcomplete := not_ragged_iff.mp hragged row (List.mem_of_getElem? hrow)
      exact absurd (hcomplete other hother column hc) h
  obtain ⟨item, hitem, hstores⟩ := exists_of_getElem?_right hstored hrow
  obtain ⟨es, rfl, hentries⟩ := hstores.entries
  obtain ⟨n, hn⟩ := List.getElem?_of_mem hown
  obtain ⟨e, he, hstore⟩ := exists_of_getElem?_right hentries hn
  exact ⟨i, j, es, e, column, hposition, hitem, List.mem_of_getElem? he, hcolumn, hstore⟩

/-! ### The plan -/

section Plan

variable {d : Dialect} {offset : Int} {arrays : List String} {rows : Value} {items : List Value}
  {stored : List StoredRow}

/-- Rows that are stored have a plan if they may lack columns. -/
theorem bulk_true_of_stored (hitems : rows.items? = some items)
    (hstored : storedRows arrays items = .ok stored) :
    bulk d offset arrays true rows = .ok (ofStoredRows d offset stored) := by
  unfold bulk
  rw [hitems]
  simp only [hstored]

/-- If they must be complete, they have the same plan or are refused for the first that lacks a
column. -/
theorem bulk_false_of_stored (hitems : rows.items? = some items)
    (hstored : storedRows arrays items = .ok stored) :
    bulk d offset arrays false rows =
      match firstIncomplete (sharedColumns stored) 0 stored with
      | some (index, missing) => .error (.build (.insertShape index missing))
      | none => .ok (ofStoredRows d offset stored) := by
  unfold bulk
  rw [hitems]
  simp only [hstored]
  cases firstIncomplete (sharedColumns stored) 0 stored with
  | none => rfl
  | some gap => rfl

/-- **Rows that must be complete.** For any rows that are each stored, in any dialect and behind any
parameters, where rows may not lack columns:

* the plan is refused exactly if some row lacks a column that another has;
* it is refused for no other reason than the first such row, and the error has the position of this
  row and all the columns it lacks, in the order of the columns of all rows;
* otherwise the plan is the one that is made where rows may lack columns, and whatever it binds,
  be it nothing, is what the row itself has in that column.
-/
theorem bulk_of_complete_rows (hitems : rows.items? = some items)
    (hstored : List.Forall₂ (fun item row => storedRow arrays item = .ok row) items stored) :
    ((∃ e, bulk d offset arrays false rows = .error e) ↔ Ragged stored) ∧
    (∀ e, bulk d offset arrays false rows = .error e ↔
      ∃ (index : Nat) (missing : List String),
        e = .build (.insertShape index missing) ∧ FirstGap stored index missing) ∧
    (¬ Ragged stored → ∃ p, bulk d offset arrays false rows = .ok p ∧
      bulk d offset arrays true rows = .ok p ∧ p.BindsOwn arrays items) := by
  have htogether := storedRows_of_forall₂ hstored
  have hbulk : bulk d offset arrays false rows = _ := bulk_false_of_stored hitems htogether
  -- the search for an incomplete row stops at the first one
  have herror : ∀ e, bulk d offset arrays false rows = .error e ↔
      ∃ (index : Nat) (missing : List String),
        e = .build (.insertShape index missing) ∧ FirstGap stored index missing := by
    intro e
    simp only [← firstIncomplete_iff_firstGap]
    rw [hbulk]
    cases firstIncomplete (sharedColumns stored) 0 stored with
    | none => simp
    | some gap =>
      obtain ⟨index, missing⟩ := gap
      constructor
      · rintro ⟨⟩
        exact ⟨index, missing, rfl, rfl⟩
      · rintro ⟨_, _, rfl, hgap⟩
        cases hgap
        rfl
  refine ⟨?_, herror, fun hragged => ?_⟩
  · rw [← exists_firstGap_iff]
    constructor
    · rintro ⟨e, he⟩
      obtain ⟨index, missing, -, hgap⟩ := (herror e).mp he
      exact ⟨index, missing, hgap⟩
    · rintro ⟨index, missing, hgap⟩
      exact ⟨_, (herror _).mpr ⟨index, missing, rfl, hgap⟩⟩
  · -- without a gap nothing is filled in, so what is bound is what each row has
    rw [firstIncomplete_eq_none_iff_not_ragged.mpr hragged] at hbulk
    have hrows : List.Forall₂ (StoredAs arrays) items stored :=
      hstored.imp fun _ _ => storedAs_of_storedRow
    exact ⟨_, hbulk, bulk_true_of_stored hitems htogether,
      ofStoredRows_bindsOwn d offset hrows hragged⟩

end Plan

/-- Two rows with the same columns in different order and spelling. The first has nothing for its
owner and an entry that is not set, the second a member that stands for nothing. -/
def completeRows : List Value :=
  [.map [(.text "ownerId", .null), (.text "tags", .unset), (.text "name", .text "Rex")],
    .map [(.text "Name", .member "Names" .plain "NONE" .null), (.text "owner_id", .int 2)]]

/-- What the two rows are stored as. -/
def completeStored : List StoredRow :=
  [[("owner_id", .null), ("name", .text "Rex")], [("name", .null), ("owner_id", .int 2)]]

/-- Three ragged rows are refused for the first, which lacks columns that only the second has; the
two rows have a plan, which binds the nothing that each of them has. -/
theorem bulk_of_complete_rows_of_ragged :
    bulk .postgres 3 ["tags"] false raggedRows =
      .error (.build (.insertShape 0 ["tags", "name"])) ∧
    FirstGap raggedStored 0 ["tags", "name"] ∧
    ∃ p, bulk .postgres 3 [] false (.list completeRows) = .ok p ∧
      p.values = [.null, .text "Rex", .int 2, .null] ∧ p.BindsOwn [] completeRows := by
  have herror : bulk .postgres 3 ["tags"] false raggedRows =
      .error (.build (.insertShape (0 : Nat) ["tags", "name"])) := by
    rfl
  obtain ⟨-, hgap, -⟩ := @bulk_of_complete_rows .postgres 3 ["tags"] raggedRows _ raggedStored rfl
    (.cons rfl (.cons rfl (.cons rfl .nil)))
  obtain ⟨index, missing, heq, hfirst⟩ := (hgap _).mp herror
  -- the error shows the position and the columns of the gap
  cases heq
  obtain ⟨hiff, -, hplan⟩ := @bulk_of_complete_rows .postgres 3 [] (.list completeRows) _
    completeStored rfl (.cons rfl (.cons rfl .nil))
  have hcomplete : ¬ Ragged completeStored := by
    rw [← hiff]
    rintro ⟨e, he⟩
    cases he
  obtain ⟨p, hp, -, hbinds⟩ := hplan hcomplete
  cases hp
  exact ⟨herror, hfirst, _, rfl, rfl, hbinds⟩

end BoundSql.InsertPlan
