import BoundSql.Proofs.Clause.FilterForms
import BoundSql.Proofs.Insert.Bindable
import BoundSql.Proofs.Path
import BoundSql.Proofs.Session.Aligned

/-!
# Filters on what was written

An entry of a row is written in the column its key names, with what is stored of its value. The same
entry as a filter is compared in the same column, but with the value as it is: nothing in a filter
is turned to its stored form. So such a filter asks for what was written exactly if the value is a
scalar, which is stored as it is. A member is stored as its value, and a record, a collection or a
mapping as a text.

* `Compiler.filter_entry` — what a filter of one entry is compiled to;
* `Session.Writes`, `Session.Compares` — the statements that write a row and those that compare;
* `Session.compares_of_written` — the column is the same, the parameter only for scalars.
-/

namespace BoundSql

/-! ### What is stored -/

/-- An entry that is set is stored somewhere in its row. -/
theorem exists_stored_of_mem {arrays : List String} {es : Entries} {row : StoredRow}
    (h : storedRow arrays (.map es) = .ok row) {k v : Value} (hmem : (k, v) ∈ es)
    (hset : v.isSet = true) :
    ∃ (i : Nat) (change : String × Value), row[i]? = some change ∧
      Stores arrays (k, v) change := by
  have hentries : List.Forall₂ (Stores arrays) (setEntries es) row := storedEntries_forall₂ h
  have hmem : (k, v) ∈ setEntries es := List.mem_filter.mpr ⟨hmem, hset⟩
  obtain ⟨i, hi, hentry⟩ := List.getElem_of_mem hmem
  have hrow : i < row.length := hentries.length_eq ▸ hi
  have hstores := hentries.get hi hrow
  refine ⟨i, row[i], List.getElem?_eq_getElem hrow, ?_⟩
  rw [← hentry]
  exact hstores

/-! ### What is compared -/

namespace Compiler

/-- **A filter of one entry** compares the column of its key with the value as it is, whatever the
aliases are. -/
theorem filter_entry (c : Compiler) (offset : Nat) {k : Value} {name : String}
    (hk : k.asText? = some name) (hne : name ≠ "") (hdot : '.' ∉ name.toList) (v : Value) :
    ∃ r, (c.filter offset (.map [(k, v)])).result = .ok r ∧
      r.whereClause = "WHERE " ++ (Ident.quote (Ident.snakeCase name) ++ " = " ++
        c.dialect.placeholder (offset + 1)) ∧ r.values = [v] := by
  have hfields : List.Forall₂ NamesField [(k, v)] [name] := .cons ⟨hk, hne⟩ .nil
  refine ⟨_, congrArg Report.result (c.filter_mapping hfields offset), ?_, rfl⟩
  have hcolumn : (Column.resolve name c.aliases).sql = Ident.quote (Ident.snakeCase name) := by
    rw [Column.resolve, Path.split_of_no_dot hdot]
    rfl
  show withKeyword true (c.equality (offset + 1) name) = _
  rw [equality, hcolumn, String.append_assoc, withKeyword, if_pos (by simp)]

end Compiler

namespace Session

/-- **The statements that write a row** to a table: every column has the parameter at its place,
and the values of a filter come behind all of them. -/
structure Writes (s : Session) (table : String) (data : Value) (row : StoredRow) : Prop where
  insert : ∀ {ε : Type} (returning : Bool),
    (s.prepare (.insert table data returning : Call ε)).result = .ok (.send
      ⟨sentence
          ["INSERT INTO " ++ Ident.quote table ++ " (" ++
              InsertPlan.columnText (row.map (·.1)) ++ ")",
            "VALUES " ++ ("(" ++ InsertPlan.placeholderText s.dialect 0 row.length ++ ")"),
            returningClause returning],
        row.map (·.2)⟩ .rows)
  update : ∀ {ε : Type} {filters : Value} {allowAll : Bool} {r : Compiled},
    (s.writeFilter "UPDATE" table filters allowAll row.length).result = .ok r →
    (s.prepare (.update table data filters allowAll : Call ε)).result = .ok (.send
      ⟨sentence
          ["UPDATE " ++ Ident.quote table, "SET " ++ assignments s.dialect (row.map (·.1)),
            r.whereClause],
        row.map (·.2) ++ r.values⟩ .count)

/-- **The statements that compare a column** of a table for a filter, with the parameter right
behind those bound before. -/
structure Compares (s : Session) (table : String) (filters : Value) (column : String)
    (parameter : Value) : Prop where
  getAll : ∀ {ε : Type} (notSingle : Option ε),
    (s.prepare (.getAll table filters notSingle)).result = .ok (.send
      ⟨selectFrom "*" table
          ["WHERE " ++ (Ident.quote column ++ " = " ++ s.dialect.placeholder 1)],
        [parameter]⟩ (readExpectation notSingle))
  update : ∀ {ε : Type} {data : Value} {row : StoredRow} (allowAll : Bool),
    storedRow s.arrays data = .ok row → row ≠ [] →
    (s.prepare (.update table data filters allowAll : Call ε)).result = .ok (.send
      ⟨sentence
          ["UPDATE " ++ Ident.quote table, "SET " ++ assignments s.dialect (row.map (·.1)),
            "WHERE " ++
              (Ident.quote column ++ " = " ++ s.dialect.placeholder (row.length + 1))],
        row.map (·.2) ++ [parameter]⟩ .count)
  delete : ∀ {ε : Type} (allowAll : Bool),
    (s.prepare (.delete table filters allowAll : Call ε)).result = .ok (.send
      ⟨sentence
          ["DELETE FROM " ++ Ident.quote table,
            "WHERE " ++ (Ident.quote column ++ " = " ++ s.dialect.placeholder 1)],
        [parameter]⟩ .count)

variable {s : Session} {table : String}

theorem writes_of_storedRow {data : Value} {row : StoredRow}
    (h : storedRow s.arrays data = .ok row) (hne : row ≠ []) : s.Writes table data row := by
  -- an insertion first, then an update, which needs something to set
  constructor
  · intro ε returning
    have hplan : InsertPlan.single s.dialect 0 s.arrays data =
        .ok (.ofStored s.dialect 0 row) := by
      rw [InsertPlan.single, h]
      rfl
    show Except.map _ (InsertPlan.single s.dialect 0 s.arrays data) = _
    rw [hplan]
    simp [Except.map, insertInto, InsertPlan.ofStored]
  · intro ε filters allowAll r hr
    have hready : ¬ row.isEmpty = true := by
      rwa [List.isEmpty_iff]
    refine Report.result_bind_eq_ok.mpr ⟨row, h, ?_⟩
    rw [if_neg hready]
    exact Report.result_map_eq_ok.mpr ⟨r, hr, rfl⟩

/-- A filter of one entry compares its column with its value. -/
theorem compares_of_entry {k : Value} {name : String}
    (hk : k.asText? = some name) (hne : name ≠ "") (hdot : '.' ∉ name.toList) (v : Value) :
    s.Compares table (.map [(k, v)]) (Ident.snakeCase name) v := by
  obtain ⟨r, hr, hwhere, hvalues⟩ := s.compiler.filter_entry 0 hk hne hdot v
  -- a clause is left, so a write is not refused
  have hguarded : ∀ (statement : String) (allowAll : Bool) {offset : Nat} {r : Compiled}
      {clause : String}, (s.compiler.filter offset (.map [(k, v)])).result = .ok r →
      r.whereClause = "WHERE " ++ clause →
      (s.writeFilter statement table (.map [(k, v)]) allowAll offset).result = .ok r := by
    intro statement allowAll offset r clause hr hwhere
    refine Report.result_bind_eq_ok.mpr ⟨r, hr, ?_⟩
    rw [if_neg (by simp [hwhere])]
    rfl
  constructor
  · intro ε notSingle
    refine Report.result_map_eq_ok.mpr ⟨r, hr, ?_⟩
    rw [hwhere, hvalues]
    rfl
  · -- the clause of an update is compiled again, behind the values that are set
    intro ε data row allowAll hrow hrow_ne
    obtain ⟨r, hr, hwhere, hvalues⟩ := s.compiler.filter_entry row.length hk hne hdot v
    have hwrite := hguarded "UPDATE" allowAll hr hwhere
    have hwrites : s.Writes table data row := writes_of_storedRow hrow hrow_ne
    rw [hwrites.update hwrite, hwhere, hvalues]
    rfl
  · intro ε allowAll
    refine Report.result_map_eq_ok.mpr ⟨r, hguarded "DELETE" allowAll hr hwhere, ?_⟩
    rw [hwhere, hvalues]
    rfl

/-- **What is written and what is compared.** Every entry of a row that is set is written in the
column its key names, with what is stored of its value. As a filter, the same entry is compared in
that very column, but with the value itself, which is what was stored exactly if it is a scalar. -/
theorem compares_of_written (table : String) {es : Entries} {row : StoredRow}
    (hrow : storedRow s.arrays (.map es) = .ok row) {k v : Value} {name : String}
    (hmem : (k, v) ∈ es) (hset : v.isSet = true) (hk : k.asText? = some name) (hne : name ≠ "")
    (hdot : '.' ∉ name.toList) :
    ∃ (i : Nat) (bound : Value), row[i]? = some (Ident.snakeCase name, bound) ∧
      v.stored s.arrays (Ident.snakeCase name) = .ok bound ∧
      s.Writes table (.map es) row ∧
      s.Compares table (.map [(k, v)]) (Ident.snakeCase name) v ∧
      (bound = v ↔ v.isScalar = true) := by
  obtain ⟨i, ⟨column, bound⟩, hi, hstores⟩ := exists_stored_of_mem hrow hmem hset
  obtain rfl : Ident.snakeCase name = column := by
    have hcolumn := hstores.column
    rw [Value.column?, hk] at hcolumn
    exact Option.some.inj hcolumn
  -- the entry itself is something to set
  have hrow_ne : row ≠ [] := by
    rintro rfl
    cases hi
  exact ⟨i, bound, hi, hstores.bound, writes_of_storedRow hrow hrow_ne,
    compares_of_entry hk hne hdot v, Value.stored_eq_self_iff hstores.bound⟩

/-- A session for a store with lists in a column of its own type. -/
def labelled : Session := ⟨{}, ["labels"], none⟩

/-- A date is written and compared as it is. -/
theorem compares_of_written_of_date :
    let born : Value := .date ⟨2024, 5, 1⟩
    let data : Entries := [(.text "labels", .list [.text "a"]), (.text "bornOn", born)]
    ∃ (i : Nat) (bound : Value) (row : StoredRow),
      storedRow labelled.arrays (.map data) = .ok row ∧ row[i]? = some ("born_on", bound) ∧
      labelled.Writes "pets" (.map data) row ∧
      labelled.Compares "pets" (.map [(.text "bornOn", born)]) "born_on" born ∧ bound = born := by
  intro born data
  have hrow : storedRow labelled.arrays (.map data) =
      .ok [("labels", .text "\x7ba\x7d"), ("born_on", born)] := by
    rfl
  obtain ⟨i, bound, hi, -, hwrites, hcompares, hsame⟩ := compares_of_written "pets" hrow
    (k := .text "bornOn") (v := born) (List.mem_cons_of_mem _ List.mem_cons_self) rfl rfl
    (by decide) (by decide)
  -- the column is that of `bornOn`
  have hcolumn : Ident.snakeCase "bornOn" = "born_on" := by decide
  rw [hcolumn] at hi hcompares
  exact ⟨i, bound, _, hrow, hi, hwrites, hcompares, hsame.mpr rfl⟩

/-- **A list is not found by what it was written as**: it is stored as a text, and compared as a
list. -/
theorem not_found_of_list :
    let data : Value := .map [(.text "meta", .list [.text "a"])]
    storedRow labelled.arrays data = .ok [("meta", .text "[\"a\"]")] ∧
      (labelled.prepare (.update "pets" data data false : Call Unit)).result = .ok (.send
        ⟨"UPDATE \"pets\" SET \"meta\" = $1 WHERE \"meta\" = $2",
          [.text "[\"a\"]", .list [.text "a"]]⟩ .count) ∧
      Value.text "[\"a\"]" ≠ .list [.text "a"] := by
  intro data
  refine ⟨rfl, rfl, ?_⟩
  intro h
  cases h

end Session

end BoundSql
