import BoundSql.Insert.Plan
import BoundSql.Proofs.Related

/-!
# What is stored of a row

A row is stored as one column for each entry that is set, in the order of the entries: the key names
the column, and the value bound for it is made of the value of the entry alone. No column comes
twice.

* `Stores`, `storedRow_eq_ok`, `StoredAs` — a row entry by entry;
* `columns_eq_of_rowAlike` — the columns do not depend on the values;
* `InsertPlan.bulk_eq_ok` — the rows of a plan;
* `InsertPlan.sharedColumns_spec`, `InsertPlan.cell_valueAt` — the columns of many rows, and what
  each row binds for them.
-/

namespace BoundSql

/-- The entries of a row that are set. -/
def setEntries (es : Entries) : Entries := es.filter fun e => e.2.isSet

/-- The column that a key names. -/
def Value.column? (k : Value) : Option String := k.asText?.map Ident.snakeCase

/-- The columns that the entries of a row are stored in. -/
def columnsOf (es : Entries) : List String := (setEntries es).filterMap fun e => e.1.column?

/-- **How an entry is stored**: under the column its key names, with what is bound for its value. -/
structure Stores (arrays : List String) (e : Value × Value) (change : String × Value) : Prop where
  column : e.1.column? = some change.1
  bound : e.2.stored arrays change.1 = .ok change.2

section Entries

variable {arrays : List String} {seen : List (String × RowKey)} {es : Entries} {row : StoredRow}

/-- A row with an entry in front that is set. -/
theorem storedEntries_cons_eq_ok {k v : Value} (hset : v.isSet = true) :
    storedEntries arrays seen ((k, v) :: es) = .ok row ↔
      ∃ name bound rest, k.asText? = some name ∧ earlierKey (Ident.snakeCase name) seen = none ∧
        v.stored arrays (Ident.snakeCase name) = .ok bound ∧
        storedEntries arrays (seen ++ [(Ident.snakeCase name, RowKey.ofValue k)]) es = .ok rest ∧
        (Ident.snakeCase name, bound) :: rest = row := by
  rw [storedEntries, if_pos hset]
  -- each of the steps may end the row: the key, its column, the value, the rest
  cases k.asText? with
  | none => simp
  | some name =>
    cases hearlier : earlierKey (Ident.snakeCase name) seen with
    | some earlier => simp [hearlier]
    | none =>
      cases hbound : v.stored arrays (Ident.snakeCase name) with
      | error m => simp [hearlier, hbound]
      | ok bound =>
        cases hrest : storedEntries arrays (seen ++ [(Ident.snakeCase name, RowKey.ofValue k)])
            es with
        | error e => simp [hearlier, hbound, hrest, Except.map]
        | ok rest => simp [hearlier, hbound, hrest, Except.map]

/-- **A row is stored entry by entry**, in the order of the entries that are set. -/
theorem storedEntries_forall₂ (h : storedEntries arrays seen es = .ok row) :
    List.Forall₂ (Stores arrays) (setEntries es) row := by
  -- what was seen before only decides whether there is a row at all
  induction es generalizing seen row with
  | nil =>
    cases h
    exact .nil
  | cons e es ih =>
    obtain ⟨k, v⟩ := e
    by_cases hset : v.isSet = true
    · obtain ⟨name, bound, rest, hname, -, hbound, hrest, rfl⟩ :=
        (storedEntries_cons_eq_ok hset).mp h
      have hentries : setEntries ((k, v) :: es) = (k, v) :: setEntries es :=
        List.filter_cons_of_pos hset
      rw [hentries]
      refine .cons ⟨?_, hbound⟩ (ih hrest)
      rw [Value.column?, hname]
      rfl
    · rw [storedEntries, if_neg hset] at h
      have hentries : setEntries ((k, v) :: es) = setEntries es := List.filter_cons_of_neg hset
      rw [hentries]
      exact ih h

end Entries

theorem earlierKey_eq_none {column : String} {seen : List (String × RowKey)} :
    earlierKey column seen = none ↔ column ∉ seen.map (·.1) := by
  simp only [earlierKey, Option.map_eq_none_iff, List.find?_eq_none, List.mem_map, beq_iff_eq,
    not_exists, not_and]

/-- **No column comes twice**, neither among those stored nor of those seen before. -/
theorem nodup_storedEntries {arrays : List String} {seen : List (String × RowKey)} {es : Entries}
    {row : StoredRow} (h : storedEntries arrays seen es = .ok row) :
    (row.map (·.1)).Nodup ∧ ∀ column ∈ row.map (·.1), column ∉ seen.map (·.1) := by
  induction es generalizing seen row with
  | nil =>
    cases h
    exact ⟨List.nodup_nil, fun _ hmem => absurd hmem List.not_mem_nil⟩
  | cons e es ih =>
    obtain ⟨k, v⟩ := e
    by_cases hset : v.isSet = true
    · obtain ⟨name, bound, rest, -, hnew, -, hrest, rfl⟩ := (storedEntries_cons_eq_ok hset).mp h
      obtain ⟨hnodup, hunseen⟩ := ih hrest
      -- what comes later has seen this column too
      have hlater : ∀ column ∈ rest.map (·.1), column ≠ Ident.snakeCase name ∧
          column ∉ seen.map (·.1) := by
        intro column hmem
        have hout := hunseen column hmem
        rw [List.map_append, List.mem_append, not_or] at hout
        exact ⟨fun heq => hout.2 (heq ▸ List.mem_singleton_self _), hout.1⟩
      rw [List.map_cons]
      refine ⟨List.nodup_cons.mpr ⟨fun hmem => (hlater _ hmem).1 rfl, hnodup⟩, ?_⟩
      intro column hmem
      rcases List.mem_cons.mp hmem with rfl | hmem
      · exact earlierKey_eq_none.mp hnew
      · exact (hlater column hmem).2
    · rw [storedEntries, if_neg hset] at h
      exact ih h

/-- Entries are stored in the columns they name. -/
theorem map_fst_of_stores {arrays : List String} {entries : Entries} {row : StoredRow}
    (h : List.Forall₂ (Stores arrays) entries row) :
    row.map (·.1) = entries.filterMap fun e => e.1.column? := by
  induction h with
  | nil => rfl
  | @cons e change entries row hstore _ ih =>
    have hcons : (e :: entries).filterMap (fun e => e.1.column?) =
        change.1 :: entries.filterMap fun e => e.1.column? :=
      List.filterMap_cons_some hstore.column
    rw [hcons, ← ih, List.map_cons]

/-! ### Rows -/

/-- A row that is stored is a mapping, stored entry by entry. -/
theorem storedRow_eq_ok {arrays : List String} {row : Value} {stored : StoredRow}
    (h : storedRow arrays row = .ok stored) :
    ∃ es, row = .map es ∧ List.Forall₂ (Stores arrays) (setEntries es) stored ∧
      stored.map (·.1) = columnsOf es := by
  cases row with
  | map es =>
    have hstores := storedEntries_forall₂ h
    exact ⟨es, rfl, hstores, map_fst_of_stores hstores⟩
  | _ => cases h

/-- **How a row is stored**: what is bound for the values of the entries that are set, in order,
each in the column its key names, and no two in one column. -/
structure StoredAs (arrays : List String) (row : Value) (stored : StoredRow) : Prop where
  entries : ∃ es, row = .map es ∧ List.Forall₂ (Stores arrays) (setEntries es) stored
  nodup : (stored.map (·.1)).Nodup

theorem storedAs_of_storedRow {arrays : List String} {row : Value} {stored : StoredRow}
    (h : storedRow arrays row = .ok stored) : StoredAs arrays row stored := by
  obtain ⟨es, rfl, hstores, -⟩ := storedRow_eq_ok h
  exact ⟨⟨es, rfl, hstores⟩, (nodup_storedEntries h).1⟩

/-- Entries that differ only in what they are set to. -/
structure EntryAlike (e e' : Value × Value) : Prop where
  key : e.1 = e'.1
  isSet : e.2.isSet = e'.2.isSet

/-- **Rows that differ only in values**: the same keys in the same order, and the same of them
set. -/
inductive RowAlike : Value → Value → Prop where
  | entries {es es' : Entries} (h : List.Forall₂ EntryAlike es es') : RowAlike (.map es) (.map es')

theorem columnsOf_eq_of_alike {es es' : Entries} (h : List.Forall₂ EntryAlike es es') :
    columnsOf es = columnsOf es' := by
  induction h with
  | nil => rfl
  | @cons e e' es es' he _ ih =>
    unfold columnsOf setEntries at ih ⊢
    rw [List.filter_cons, List.filter_cons, he.isSet]
    split
    · rw [List.filterMap_cons, List.filterMap_cons, he.key, ih]
    · exact ih

/-- **The columns do not depend on the values.** -/
theorem columns_eq_of_rowAlike {arrays : List String} {row row' : Value}
    {stored stored' : StoredRow} (h : RowAlike row row') (hrow : storedRow arrays row = .ok stored)
    (hrow' : storedRow arrays row' = .ok stored') :
    stored.map (·.1) = stored'.map (·.1) := by
  obtain ⟨es, rfl, -, hcolumns⟩ := storedRow_eq_ok hrow
  obtain ⟨es', rfl, -, hcolumns'⟩ := storedRow_eq_ok hrow'
  cases h with
  | entries h => rw [hcolumns, hcolumns', columnsOf_eq_of_alike h]

namespace InsertPlan

theorem storedRows_forall₂ {arrays : List String} {items : List Value} {rows : List StoredRow}
    (h : storedRows arrays items = .ok rows) :
    List.Forall₂ (fun item row => storedRow arrays item = .ok row) items rows := by
  induction items generalizing rows with
  | nil =>
    cases h
    exact .nil
  | cons item items ih =>
    rw [storedRows] at h
    cases hrow : storedRow arrays item with
    | error e =>
      rw [hrow] at h
      cases h
    | ok row =>
      rw [hrow] at h
      -- the first row that is not stored ends them all
      cases hrest : storedRows arrays items with
      | error e =>
        rw [hrest] at h
        cases h
      | ok rest =>
        rw [hrest] at h
        cases h
        exact .cons hrow (ih hrest)

/-- **A plan of many rows**, which may lack columns, has all of them stored. -/
theorem bulk_eq_ok {d : Dialect} {offset : Int} {arrays : List String} {rows : Value}
    {p : InsertPlan} (h : bulk d offset arrays true rows = .ok p) :
    ∃ items stored, rows.items? = some items ∧
      List.Forall₂ (fun item row => storedRow arrays item = .ok row) items stored ∧
      p = ofStoredRows d offset stored := by
  unfold bulk at h
  cases hitems : rows.items? with
  | none =>
    rw [hitems] at h
    cases h
  | some items =>
    rw [hitems] at h
    cases hstored : storedRows arrays items with
    | error e =>
      simp only [hstored] at h
      cases h
    | ok stored =>
      -- rows may lack columns, so nothing is checked behind this
      simp only [hstored] at h
      exact ⟨items, stored, rfl, storedRows_forall₂ hstored, (Except.ok.inj h).symm⟩

/-! ### The columns of many rows -/

theorem mem_addColumns {column : String} {columns more : List String} :
    column ∈ addColumns columns more ↔ column ∈ columns ∨ column ∈ more := by
  induction more generalizing columns with
  | nil => simp [addColumns]
  | cons c more ih =>
    rw [addColumns, ih, List.mem_cons]
    -- a column that is there already is not added
    split
    · rename_i hold
      have hc : c ∈ columns := List.contains_iff_mem.mp hold
      constructor
      · exact fun h => h.imp_right .inr
      · rintro (h | rfl | h)
        exacts [.inl h, .inl hc, .inr h]
    · rw [List.mem_append, List.mem_singleton, or_assoc]

theorem nodup_addColumns {columns : List String} (h : columns.Nodup) (more : List String) :
    (addColumns columns more).Nodup := by
  induction more generalizing columns with
  | nil => exact h
  | cons c more ih =>
    rw [addColumns]
    -- a column is added only if it is new
    split
    · exact ih h
    · rename_i hnew
      have hc : c ∉ columns := fun hmem => hnew (List.contains_iff_mem.mpr hmem)
      refine ih (List.nodup_append.mpr ⟨h, List.pairwise_singleton _ c, ?_⟩)
      rintro a ha b hb rfl
      exact hc (List.mem_singleton.mp hb ▸ ha)

/-- **The columns of all rows** are those of each, no column twice. -/
theorem sharedColumns_spec (rows : List StoredRow) :
    (sharedColumns rows).Nodup ∧
      ∀ column, column ∈ sharedColumns rows ↔ ∃ row ∈ rows, column ∈ row.map (·.1) := by
  -- the columns so far are distinct, and are those of the rows so far
  have hfold (columns : List String) (h : columns.Nodup) :
      (rows.foldl (fun columns row => addColumns columns (row.map (·.1))) columns).Nodup ∧
        ∀ column,
          column ∈ rows.foldl (fun columns row => addColumns columns (row.map (·.1))) columns ↔
            column ∈ columns ∨ ∃ row ∈ rows, column ∈ row.map (·.1) := by
    induction rows generalizing columns with
    | nil => exact ⟨h, fun column => by simp⟩
    | cons row rows ih =>
      obtain ⟨hnodup, hmem⟩ := ih _ (nodup_addColumns h (row.map (·.1)))
      refine ⟨hnodup, fun column => ?_⟩
      rw [List.foldl_cons, hmem, mem_addColumns, or_assoc, List.exists_mem_cons_iff]
  obtain ⟨hnodup, hmem⟩ := hfold [] List.nodup_nil
  refine ⟨hnodup, fun column => (hmem column).trans ?_⟩
  simp

/-- What a row has in a column: what is stored there, or nothing. -/
inductive Cell (row : StoredRow) (column : String) : Value → Prop where
  | stored {v : Value} (h : (column, v) ∈ row) : Cell row column v
  | missing (h : column ∉ row.map (·.1)) : Cell row column .null

/-- **What a row binds for a column** is what it has there. -/
theorem cell_valueAt (row : StoredRow) (column : String) :
    Cell row column (valueAt row column) := by
  unfold valueAt
  induction row with
  | nil => exact .missing List.not_mem_nil
  | cons change row ih =>
    obtain ⟨c, v⟩ := change
    -- the first entry of the column decides
    by_cases hc : column = c
    · subst hc
      rw [List.lookup_cons_self]
      exact .stored List.mem_cons_self
    · have hother : (column == c) = false := by simpa using hc
      rw [List.lookup_cons, hother]
      show Cell _ _ ((row.lookup column).getD .null)
      generalize (row.lookup column).getD .null = w at ih ⊢
      cases ih with
      | stored h => exact .stored (List.mem_cons_of_mem _ h)
      | missing h => exact .missing fun hmem => (List.mem_cons.mp hmem).elim hc h

end InsertPlan

end BoundSql
