import BoundSql.Proofs.Insert.Complete
import BoundSql.Proofs.Refusal
import BoundSql.Proofs.Report

/-!
# Plans of many rows, row by row

A plan of many rows is made of one list of columns for all of them, and a plan of one row has its
columns from that row alone. Where the rows have the same columns in the same order the two agree:
the plan of many is the plans of each, one behind the other, the plan of a row being made behind the
parameters of those in front of it.

Both kinds of plans store the rows first, so they fail alike: a plan of many fails at the first row
that has no plan of its own.

* `InsertPlan.sharedColumns_of_same` — rows with the same columns share them;
* `InsertPlan.tuples_eq_map` — the tuples, each numbered behind those in front of it;
* `InsertPlan.storedRows_eq_error_iff` — where rows are not stored;
* `InsertPlan.bulk_concatenates` — plans of many rows against plans of one.
-/

namespace BoundSql.InsertPlan

/-! ### One list of columns -/

/-- Columns that are new are added as they come. -/
theorem addColumns_of_new {columns more : List String} (h : (columns ++ more).Nodup) :
    addColumns columns more = columns ++ more := by
  induction more generalizing columns with
  | nil => exact (List.append_nil columns).symm
  | cons c more ih =>
    have hnew : ¬ columns.contains c = true := by
      intro hold
      obtain ⟨-, -, hapart⟩ := List.nodup_append.mp h
      exact hapart c (List.contains_iff_mem.mp hold) c List.mem_cons_self rfl
    rw [List.append_cons] at h ⊢
    rw [addColumns, if_neg hnew, ih h]

/-- Columns that are there already are not added again. -/
theorem addColumns_of_old {columns more : List String} (h : ∀ c ∈ more, c ∈ columns) :
    addColumns columns more = columns := by
  induction more with
  | nil => rfl
  | cons c more ih =>
    obtain ⟨hc, hmore⟩ := List.forall_mem_cons.mp h
    rw [addColumns, if_pos (List.contains_iff_mem.mpr hc), ih hmore]

/-- **Rows with the same columns** share these and no others. -/
theorem sharedColumns_of_same {columns : List String} (hnodup : columns.Nodup)
    {rows : List StoredRow} (hne : rows ≠ []) (h : ∀ row ∈ rows, row.map (·.1) = columns) :
    sharedColumns rows = columns := by
  -- behind the first row no column is new
  have hrest : ∀ rows : List StoredRow, (∀ row ∈ rows, row.map (·.1) = columns) →
      rows.foldl (fun columns row => addColumns columns (row.map (·.1))) columns = columns := by
    intro rows h
    induction rows with
    | nil => rfl
    | cons row rows ih =>
      obtain ⟨hrow, hrows⟩ := List.forall_mem_cons.mp h
      rw [List.foldl_cons, hrow, addColumns_of_old fun _ hc => hc, ih hrows]
  obtain ⟨row, rows, rfl⟩ := List.exists_cons_of_ne_nil hne
  obtain ⟨hrow, hrows⟩ := List.forall_mem_cons.mp h
  have hfirst : addColumns [] columns = columns := addColumns_of_new hnodup
  rw [sharedColumns, List.foldl_cons, hrow, hfirst, hrest rows hrows]

/-! ### Values and placeholders -/

/-- What a row binds for its own columns is what it has there. -/
theorem map_valueAt_self {row : StoredRow} (h : (row.map (·.1)).Nodup) :
    (row.map (·.1)).map (valueAt row) = row.map (·.2) := by
  rw [List.map_map]
  apply List.map_congr_left
  intro change hchange
  exact cell_eq_of_mem h hchange (cell_valueAt row change.1)

/-- **The tuples of rows** are the placeholders of their plans, if each plan is made behind the
parameters of those in front of it. -/
theorem tuples_eq_map (d : Dialect) (offset : Int) {width : Nat} {rows : List StoredRow}
    (h : ∀ row ∈ rows, (row.map (·.1)).length = width) :
    tuples d offset width rows.length =
      (rows.mapIdx fun i row => ofStored d (offset + (i * width : Nat)) row).map fun q =>
        "(" ++ q.placeholders ++ ")" := by
  induction rows generalizing offset with
  | nil => rfl
  | cons row rows ih =>
    obtain ⟨hrow, hrows⟩ := List.forall_mem_cons.mp h
    have hfirst : (ofStored d (offset + (0 * width : Nat)) row).placeholders =
        placeholderText d offset width := by
      rw [Nat.zero_mul, Int.natCast_zero, Int.add_zero, ofStored, hrow]
    -- the rows behind the first are numbered on from its parameters
    have hlater : ∀ i : Nat,
        offset + width + (i * width : Nat) = offset + ((i + 1) * width : Nat) := by
      intro i
      rw [Nat.succ_mul]
      omega
    rw [List.length_cons, tuples, ih _ hrows, List.mapIdx_cons, List.map_cons, hfirst]
    simp only [hlater]

/-! ### Rows that are not stored -/

/-- **Rows are stored up to the first that is none.** -/
theorem storedRows_eq_error_iff {arrays : List String} {items : List Value} {e : Error} :
    storedRows arrays items = .error e ↔
      FirstRefusal (fun item e => storedRow arrays item = .error e) items e := by
  induction items with
  | nil => exact iff_of_false nofun (not_firstRefusal_nil e)
  | cons item items ih =>
    rw [storedRows, firstRefusal_cons, ← ih]
    cases storedRow arrays item with
    | error e' => simp
    | ok row => simp [Report.except_map_eq_error]

/-- A plan of many rows, which may lack columns, fails where the rows are not stored. -/
theorem bulk_eq_error_iff {d : Dialect} {offset : Int} {arrays : List String} {rows : Value}
    {items : List Value} (hitems : rows.items? = some items) {e : Error} :
    bulk d offset arrays true rows = .error e ↔ storedRows arrays items = .error e := by
  unfold bulk
  rw [hitems]
  cases hstored : storedRows arrays items with
  | error e' => simp [hstored]
  | ok stored => simp [hstored]

theorem single_eq_error_iff {d : Dialect} {offset : Int} {arrays : List String} {item : Value}
    {e : Error} : single d offset arrays item = .error e ↔ storedRow arrays item = .error e :=
  Report.except_map_eq_error

/-! ### The plan -/

/-- **A plan that is made of the plans of its rows**, where `width` is the number of columns. -/
structure Concatenates (d : Dialect) (offset : Int) (arrays : List String) (items : List Value)
    (width : Nat) (p : InsertPlan) : Prop where
  /-- Every row has a plan of its own. The columns are those of each of these plans, and the values
  are theirs, one plan behind the other. -/
  alone : ∃ plans : List InsertPlan, items.map (single d 0 arrays) = plans.map .ok ∧
    (∀ q ∈ plans, q.columns.length = width ∧ p.columns = q.columns ∧
      p.columnList = q.columnList) ∧
    p.values = plans.flatMap InsertPlan.values
  /-- Every row has a plan behind the parameters of the rows in front of it, too. The tuples are the
  placeholders of these plans. -/
  numbered : ∃ plans : List InsertPlan,
    (items.mapIdx fun i item => single d (offset + (i * width : Nat)) arrays item) =
      plans.map .ok ∧
    p.placeholders = ",".intercalate (plans.map fun q => "(" ++ q.placeholders ++ ")")

/-- Rows that are stored one by one have plans of their own. -/
theorem map_single {d : Dialect} {arrays : List String} (offset : Int) {items : List Value}
    {stored : List StoredRow}
    (h : List.Forall₂ (fun item row => storedRow arrays item = .ok row) items stored) :
    items.map (single d offset arrays) = (stored.map (ofStored d offset)).map .ok := by
  induction h with
  | nil => rfl
  | cons hrow _ ih =>
    rw [List.map_cons, List.map_cons, List.map_cons, ih, single, hrow]
    rfl

/-- They have such plans too if each is made behind other parameters. -/
theorem mapIdx_single {d : Dialect} {arrays : List String} (offset : Nat → Int)
    {items : List Value} {stored : List StoredRow}
    (h : List.Forall₂ (fun item row => storedRow arrays item = .ok row) items stored) :
    (items.mapIdx fun i item => single d (offset i) arrays item) =
      (stored.mapIdx fun i row => ofStored d (offset i) row).map .ok := by
  induction h generalizing offset with
  | nil => rfl
  | @cons item row items stored hrow _ ih =>
    rw [List.mapIdx_cons, List.mapIdx_cons, List.map_cons, ih fun i => offset (i + 1), single, hrow]
    rfl

/-- **The plan of rows with the same columns** is made of the plans of each. -/
theorem ofStoredRows_concatenates (d : Dialect) (offset : Int) {arrays : List String}
    {items : List Value} {stored : List StoredRow} {columns : List String}
    (hstored : List.Forall₂ (fun item row => storedRow arrays item = .ok row) items stored)
    (hcolumns : ∀ row ∈ stored, row.map (·.1) = columns)
    (hshared : sharedColumns stored = columns) :
    (ofStoredRows d offset stored).Concatenates d offset arrays items columns.length := by
  -- a row that has just the shared columns is bound as it is
  have hvalues : ∀ row ∈ stored, columns.map (valueAt row) = row.map (·.2) := by
    intro row hrow
    obtain ⟨item, hitem⟩ := exists_of_mem_right hstored hrow
    have hnodup : (row.map (·.1)).Nodup := (storedAs_of_storedRow hitem).nodup
    rw [← hcolumns row hrow]
    exact map_valueAt_self hnodup
  refine ⟨⟨stored.map (ofStored d 0), ?_, ?_, ?_⟩, ⟨_, mapIdx_single _ hstored, ?_⟩⟩
  · exact map_single 0 hstored
  · refine List.forall_mem_map.mpr fun row hrow => ?_
    have hown : (ofStored d 0 row).columns = columns := hcolumns row hrow
    refine ⟨congrArg List.length hown, hshared.trans hown.symm, ?_⟩
    exact congrArg columnText (hshared.trans hown.symm)
  · calc (ofStoredRows d offset stored).values
      _ = stored.flatMap fun row => columns.map (valueAt row) := by
        rw [← hshared]
        rfl
      _ = stored.flatMap fun row => row.map (·.2) := List.flatMap_congr hvalues
      _ = (stored.map (ofStored d 0)).flatMap InsertPlan.values := by
        rw [List.flatMap_map]
        rfl
  · -- the tuples differ in their numbers alone, as all rows have one width
    have htuples : (ofStoredRows d offset stored).placeholders =
        ",".intercalate (tuples d offset columns.length stored.length) := by
      rw [← hshared]
      rfl
    rw [htuples, tuples_eq_map d offset fun row hrow => congrArg List.length (hcolumns row hrow)]

/-- Rows that are each stored in the same columns are stored together. -/
theorem exists_stored_of_same {arrays : List String} {columns : List String} {items : List Value}
    (h : ∀ item ∈ items, ∃ row, storedRow arrays item = .ok row ∧ row.map (·.1) = columns) :
    ∃ stored, List.Forall₂ (fun item row => storedRow arrays item = .ok row) items stored ∧
      ∀ row ∈ stored, row.map (·.1) = columns := by
  induction items with
  | nil => exact ⟨[], .nil, List.forall_mem_nil _⟩
  | cons item items ih =>
    obtain ⟨⟨row, hrow, hcolumns⟩, hitems⟩ := List.forall_mem_cons.mp h
    obtain ⟨stored, hstored, hsame⟩ := ih hitems
    exact ⟨row :: stored, .cons hrow hstored, List.forall_mem_cons.mpr ⟨hcolumns, hsame⟩⟩

/-- Rows with the same columns are complete. -/
theorem firstIncomplete_of_same {columns : List String} {rows : List StoredRow}
    (h : ∀ row ∈ rows, row.map (·.1) = columns) (index : Nat) :
    firstIncomplete columns index rows = none := by
  refine firstIncomplete_eq_none_iff.mpr fun row hrow => ?_
  rw [missingColumns, h row hrow]
  exact List.filter_eq_nil_iff.mpr fun c hc => by simp [hc]

/-- **Plans of many rows are the plans of each, one behind the other.** For any rows, dialect, array
columns and parameters in front:

* where all rows are stored in the same columns, there is a plan of them, whether or not rows may
  lack columns; its columns are those of each row, its values those of the rows in order, and its
  tuples the placeholders of the rows, each numbered behind those in front of it;
* if rows may lack columns, a plan of many fails exactly where some row has no plan of its own, and
  with the error of the first such row.
-/
theorem bulk_concatenates {d : Dialect} {offset : Int} {arrays : List String} {rows : Value}
    {items : List Value} (hitems : rows.items? = some items) :
    (∀ (fill : Bool) (columns : List String), items ≠ [] →
      (∀ item ∈ items, ∃ row, storedRow arrays item = .ok row ∧ row.map (·.1) = columns) →
      ∃ p, bulk d offset arrays fill rows = .ok p ∧ p.columns = columns ∧
        p.Concatenates d offset arrays items columns.length) ∧
    (∀ e, bulk d offset arrays true rows = .error e ↔
      FirstRefusal (fun item e => single d 0 arrays item = .error e) items e) ∧
    ((∃ e, bulk d offset arrays true rows = .error e) ↔
      ∃ item ∈ items, ∃ e, single d 0 arrays item = .error e) := by
  -- a plan of one row fails exactly if the row is not stored
  have herror : ∀ e, bulk d offset arrays true rows = .error e ↔
      FirstRefusal (fun item e => single d 0 arrays item = .error e) items e := by
    intro e
    simp only [single_eq_error_iff]
    rw [bulk_eq_error_iff hitems, storedRows_eq_error_iff]
  refine ⟨fun fill columns hne hsame => ?_, herror, ?_⟩
  · obtain ⟨stored, hstored, hcolumns⟩ := exists_stored_of_same hsame
    obtain ⟨first, hfirst⟩ : ∃ row, row ∈ stored := by
      cases hstored with
      | nil => exact absurd rfl hne
      | cons _ _ => exact ⟨_, List.mem_cons_self⟩
    obtain ⟨item, hitem⟩ := exists_of_mem_right hstored hfirst
    -- a row that is stored has no column twice, so neither have the shared columns
    have hnodup : columns.Nodup := hcolumns first hfirst ▸ (storedAs_of_storedRow hitem).nodup
    have hshared : sharedColumns stored = columns :=
      sharedColumns_of_same hnodup (List.ne_nil_of_mem hfirst) hcolumns
    have hbulk : bulk d offset arrays fill rows = .ok (ofStoredRows d offset stored) := by
      unfold bulk
      rw [hitems]
      simp only [storedRows_of_forall₂ hstored, hshared, firstIncomplete_of_same hcolumns]
    exact ⟨_, hbulk, hshared, ofStoredRows_concatenates d offset hstored hcolumns hshared⟩
  · rw [← exists_firstRefusal_iff]
    exact exists_congr herror

/-- Two rows with the same columns in different spellings, one of them with an entry that is not
set. -/
def spelledRows : List Value :=
  [.map [(.text "ownerId", .int 1), (.text "name", .unset), (.text "tags", .list [.text "a b"])],
    .map [(.text "owner-id", .int 2), (.text "Tags", .list [])]]

/-- The plan of the two rows behind three parameters. -/
def spelledPlan : InsertPlan :=
  ⟨["owner_id", "tags"], "\"owner_id\",\"tags\"", "($4,$5),($6,$7)",
    [.int 1, .text "\x7b\"a b\"\x7d", .int 2, .text "\x7b\x7d"]⟩

/-- A good row, one with two keys of one column, and one that is no mapping. -/
def clashingRows : List Value :=
  [.map [(.text "a", .int 1)], .map [(.text "ownerId", .int 1), (.text "owner_id", .int 2)], .int 3]

/-- The second of the two rows is numbered behind the first; of the three, the second has the
error. -/
theorem bulk_concatenates_of_spellings :
    (Value.list spelledRows).items? = some spelledRows ∧
    (∀ item ∈ spelledRows, ∃ row, storedRow ["tags"] item = .ok row ∧
      row.map (·.1) = ["owner_id", "tags"]) ∧
    bulk .postgres 3 ["tags"] false (.list spelledRows) = .ok spelledPlan ∧
    spelledPlan.Concatenates .postgres 3 ["tags"] spelledRows 2 ∧
    bulk .postgres 3 [] true (.list clashingRows) = .error (.build (.duplicateColumn "owner_id"
      [⟨"ownerId", "'ownerId'"⟩, ⟨"owner_id", "'owner_id'"⟩])) := by
  have hsame : ∀ item ∈ spelledRows, ∃ row, storedRow ["tags"] item = .ok row ∧
      row.map (·.1) = ["owner_id", "tags"] :=
    List.forall_mem_cons.mpr ⟨⟨_, rfl, rfl⟩, List.forall_mem_singleton.mpr ⟨_, rfl, rfl⟩⟩
  obtain ⟨hplans, -⟩ :=
    @bulk_concatenates .postgres 3 ["tags"] (.list spelledRows) spelledRows rfl
  obtain ⟨p, hp, -, hconcatenates⟩ := hplans false ["owner_id", "tags"] (by decide) hsame
  have hplan : bulk .postgres 3 ["tags"] false (.list spelledRows) = .ok spelledPlan := by
    rfl
  obtain rfl : spelledPlan = p := Except.ok.inj (hplan.symm.trans hp)
  obtain ⟨-, herror, -⟩ := @bulk_concatenates .postgres 3 [] (.list clashingRows) clashingRows rfl
  refine ⟨rfl, hsame, hplan, hconcatenates, (herror _).mpr ?_⟩
  -- the row in front of the second has a plan, and the one behind it is not looked at
  refine firstRefusal_cons.mpr (.inr ⟨?_, firstRefusal_cons.mpr (.inl rfl)⟩)
  intro e he
  cases he

end BoundSql.InsertPlan
