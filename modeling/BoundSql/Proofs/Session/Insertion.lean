import BoundSql.Proofs.Ident.SnakeCase
import BoundSql.Proofs.Session.Aligned
import BoundSql.Proofs.Sql.Insertion

/-!
# What is inserted

An `INSERT` that is executed, of one row or of many, is read as one insertion: into the table of the
call, in the columns of the keys that are set in any of the rows, no two alike, with one tuple for
each row and one placeholder in it for each column. All this holds of every row that can be stored.

Nothing makes sure that there is a column, and that it has a name. A row with no entry set has none,
and a key without a letter or digit names the column of length zero. The statement is sent all the
same, and no store takes it. An update with nothing to set, in contrast, is not sent.

* `Session.Inserts` — what the statement for rows is read as;
* `Session.insertion_of_executed` — what is executed, and when a store takes it.
-/

namespace BoundSql

/-! ### The lexemes of the parts -/

namespace Sql.Draft

variable {style : PlaceholderStyle} {follows : List Char → Prop}

/-- A closing bracket behind a draft that it may follow. -/
theorem Scans.closed {bound : Nat} {d : Draft} {ls : List Lexeme}
    (h : Scans style Breaks bound d ls) :
    Scans style follows bound (d ++ [.verbatim ")"]) (ls ++ [.closing]) := by
  have hclosing : Lexes ")" [.closing] := fun _ _ => rfl
  exact h.append_verbatim breaks_closing hclosing scans_nil

theorem scans_names (bound : Nat) (columns : List String) :
    Scans style Breaks bound (names columns) (listed (columns.map fun c => [.name c])) := by
  have hname : ∀ bound c,
      Scans style Breaks bound [.verbatim (Ident.quote c)] [.name c] := fun _ => scans_name
  -- a column binds nothing, so the numbers stay where they are
  have hlexemes : lexemesFrom (fun c => [.verbatim (Ident.quote c)]) (fun _ c => [.name c]) bound
      columns = columns.map fun c => [.name c] := by
    induction columns generalizing bound with
    | nil => rfl
    | cons c columns ih => exact congrArg _ (ih bound)
  have hnames := scans_commas hname bound columns
  rw [hlexemes] at hnames
  exact hnames

theorem scans_tuple (bound : Nat) (vs : List Value) :
    Scans style Breaks bound (tuple vs)
      (Insertion.tupleLexemes (List.range' (bound + 1) vs.length)) := by
  have hvalue : ∀ bound v,
      Scans style Breaks bound [.bound v] [.parameter (some (bound + 1))] := fun _ => scans_bound
  -- each value is one parameter, with the next number
  have hlexemes : lexemesFrom (fun v => [.bound v]) (fun bound _ => [.parameter (some (bound + 1))])
      bound vs = (List.range' (bound + 1) vs.length).map fun n => [.parameter (some n)] := by
    induction vs generalizing bound with
    | nil => rfl
    | cons v vs ih => exact congrArg _ (ih (bound + 1))
  have hvalues := scans_commas hvalue bound vs
  rw [hlexemes] at hvalues
  have hopening : Lexes "(" [.opening] := fun _ _ => rfl
  exact hvalues.closed.verbatim_cons hopening

theorem scans_tuples (bound : Nat) (rows : List (List Value)) :
    Scans style Breaks bound (tuples rows)
      (.operator "VALUES" :: listed ((numberTuples bound rows).map Insertion.tupleLexemes)) := by
  have htuple : ∀ bound vs, Scans style Breaks bound (tuple vs)
      (Insertion.tupleLexemes (List.range' (bound + 1) vs.length)) := scans_tuple
  -- each row is one tuple, numbered behind those in front of it
  have hlexemes : lexemesFrom tuple
      (fun bound vs => Insertion.tupleLexemes (List.range' (bound + 1) vs.length)) bound rows =
        (numberTuples bound rows).map Insertion.tupleLexemes := by
    induction rows generalizing bound with
    | nil => rfl
    | cons vs rows ih =>
      rw [lexemesFrom, values_tuple, ih]
      rfl
  have htuples := scans_commas htuple bound rows
  rw [hlexemes] at htuples
  have hvalues : Lexes "VALUES " [.operator "VALUES"] := fun _ _ => rfl
  exact htuples.verbatim_cons hvalues

theorem scans_insertHead (bound : Nat) (table : String) (columns : List String) :
    Scans style Clear bound (insertHead table columns)
      ([.operator "INSERT", .operator "INTO", .name table, .opening] ++
        (listed (columns.map fun c => [.name c]) ++ [.closing])) := by
  have hinsert : Lexes "INSERT INTO " [.operator "INSERT", .operator "INTO"] := fun _ _ => rfl
  have hopening : Lexes " (" [.opening] := fun _ _ => rfl
  have hlead : Scans style Breaks bound (lead "INSERT INTO " table)
      [.operator "INSERT", .operator "INTO", .name table] :=
    (scans_name table).verbatim_cons hinsert
  have hbreaks : ∀ rest, Breaks (" (".toList ++ rest) :=
    fun rest => Breaks.of_clear (clear_blank ('(' :: rest))
  exact hlead.append_verbatim hbreaks hopening (scans_names bound columns).closed

theorem scans_returned (bound : Nat) (returning : Bool) :
    Scans style Clear bound (returned returning) (Insertion.returningLexemes returning) := by
  cases returning with
  | false => exact scans_nil
  | true =>
    refine scans_verbatim fun rest hrest => ?_
    rcases clear_cases hrest with rfl | ⟨rest, rfl⟩
    · rfl
    · rfl

/-- **The lexemes of an `INSERT`** are those of the insertion of its rows. -/
theorem scans_insert (table : String) (columns : List String) (cells : List (List Value))
    (returning : Bool) :
    Scans style Clear 0 (sentence [insertHead table columns, tuples cells, returned returning])
      (⟨table, columns, numberTuples 0 cells, returning⟩ : Insertion).lexemes := by
  have hhead : Scans style Clear 0 (insertHead table columns) _ := scans_insertHead 0 table columns
  have htuples : Scans style Clear 0 (tuples cells) _ :=
    fun rest hrest => scans_tuples 0 cells rest (Breaks.of_clear hrest)
  -- nothing is bound in front of the tuples
  have hbound : 0 + (values (insertHead table columns)).length = 0 := by
    simp
  cases returning with
  | false =>
    have hsentence : sentence [insertHead table columns, tuples cells, returned false] =
        insertHead table columns ++ .verbatim " " :: tuples cells := rfl
    have hall := hhead.append_blank (hbound.symm ▸ htuples)
    rw [hsentence]
    simpa [Insertion.lexemes, Insertion.returningLexemes] using hall
  | true =>
    have hsentence : sentence [insertHead table columns, tuples cells, returned true] =
        insertHead table columns ++ .verbatim " " :: (tuples cells ++ .verbatim " " ::
          returned true) := rfl
    have hend := htuples.append_blank (scans_returned _ true)
    have hall := hhead.append_blank (hbound.symm ▸ hend)
    rw [hsentence]
    simpa [Insertion.lexemes] using hall

end Sql.Draft

/-! ### Keys -/

/-- The keys of a row whose entries are set. -/
def Value.setKeys : Value → List Value
  | map es => (setEntries es).map (·.1)
  | _ => []

/-- Whether a key has an ASCII letter or digit in it. -/
def Value.HasName (k : Value) : Prop :=
  ∃ name, k.asText? = some name ∧ ∃ c ∈ name.toList, c.isAlphanum = true

instance : DecidablePred Value.HasName := fun k =>
  decidable_of_iff ((k.asText?.any fun name => name.toList.any Char.isAlphanum) = true) (by
    simp [Value.HasName, Option.any_eq_true])

/-- A key names a column without a name exactly if it has no letter or digit. -/
theorem Value.hasName_iff {k : Value} {column : String} (h : k.column? = some column) :
    k.HasName ↔ column ≠ "" := by
  obtain ⟨name, hname, rfl⟩ := Option.map_eq_some_iff.mp h
  rw [ne_eq, Ident.snakeCase_eq_empty_iff, HasName, hname]
  simp

/-- **The columns of a stored row** are those its set keys name, and each of these names one. -/
theorem StoredAs.columns {arrays : List String} {row : Value} {stored : StoredRow}
    (h : StoredAs arrays row stored) :
    (∀ k ∈ row.setKeys, ∃ column, k.column? = some column) ∧
    ∀ column, column ∈ stored.map (·.1) ↔ ∃ k ∈ row.setKeys, k.column? = some column := by
  obtain ⟨es, rfl, hstores⟩ := h.entries
  constructor
  · -- the entry of the key stands at the place of its change
    intro k hk
    obtain ⟨e, he, rfl⟩ := List.mem_map.mp hk
    obtain ⟨i, hi, rfl⟩ := List.getElem_of_mem he
    have hchange := hstores.get hi (hstores.length_eq ▸ hi)
    exact ⟨_, hchange.column⟩
  · intro column
    rw [map_fst_of_stores hstores]
    simp [Value.setKeys]

/-- The columns of stored rows are those that any of them names. -/
theorem columns_of_storedAs {arrays : List String} {rows : List Value} {stored : List StoredRow}
    (h : List.Forall₂ (StoredAs arrays) rows stored) :
    (∀ row ∈ rows, ∀ k ∈ row.setKeys, ∃ column, k.column? = some column) ∧
    ∀ column, (∃ row ∈ stored, column ∈ row.map (·.1)) ↔
      ∃ row ∈ rows, ∃ k ∈ row.setKeys, k.column? = some column := by
  induction h with
  | nil => simp
  | cons hrow _ ih =>
    obtain ⟨hkeys, hcolumns⟩ := hrow.columns
    refine ⟨List.forall_mem_cons.mpr ⟨hkeys, ih.1⟩, fun column => ?_⟩
    rw [List.exists_mem_cons_iff, List.exists_mem_cons_iff, hcolumns, ih.2]

/-! ### Insertions -/

/-- The rows that a call inserts. -/
def Call.insertedRows? {ε : Type} : Call ε → Option (List Value)
  | .insert _ data _ => some [data]
  | .bulkInsert _ rows _ => rows.items?
  | _ => none

namespace Session

open Sql.Draft

variable {ε : Type} {s : Session}

/-- **What a statement that inserts rows is read as**: one insertion and no other. -/
structure Inserts (call : Call ε) (rows : List Value) (stmt : Statement) (i : Sql.Insertion) :
    Prop where
  read : ∀ j : Sql.Insertion, Sql.lexemes 0 stmt.sql = j.lexemes ↔ j = i
  table : call.table? = some i.table
  /-- Every key that is set names a column, if only one without a name. -/
  keys : ∀ row ∈ rows, ∀ k ∈ row.setKeys, ∃ column, k.column? = some column
  columns : ∀ column, column ∈ i.columns ↔ ∃ row ∈ rows, ∃ k ∈ row.setKeys, k.column? = some column
  nodup : i.columns.Nodup
  tuples : i.tuples.length = rows.length
  width : ∀ numbers ∈ i.tuples, numbers.length = i.columns.length
  /-- The placeholders are numbered from one, one for each parameter. -/
  numbers : i.tuples.flatten = List.range' 1 stmt.parameters.length

/-- **The text of an `INSERT`** is read as the insertion of its rows, and as no other. -/
theorem lexemes_insert (style : PlaceholderStyle) (table : String) (columns : List String)
    (cells : List (List Value)) (returning : Bool) (j : Sql.Insertion) :
    Sql.lexemes 0 (sentence (texts style 0
      [.insertHead table columns, .tuples cells, .returned returning])) = j.lexemes ↔
        j = ⟨table, columns, numberTuples 0 cells, returning⟩ := by
  let i : Sql.Insertion := ⟨table, columns, numberTuples 0 cells, returning⟩
  let ds : List Sql.Draft := [.insertHead table columns, .tuples cells, .returned returning]
  have hlegible : ∀ d ∈ ds, Legible style d := by
    simp only [ds, List.forall_mem_cons]
    exact ⟨legible_insertHead table columns, legible_tuples cells, legible_returned returning,
      List.forall_mem_nil _⟩
  have hscans : Scans style Sql.Clear 0 (Sql.Draft.sentence ds) i.lexemes :=
    scans_insert table columns cells returning
  have hscan : Sql.scan .between (sentence (texts style 0 ds)).toList =
      i.lexemes.map (Sql.Lexeme.shown style) := by
    -- nothing follows the whole statement
    have hwhole := hscans [] fun _ hc => by cases hc
    rw [text_sentence style 0 fun d hd => (hlegible d hd).shown, List.append_nil] at hwhole
    exact hwhole.trans (List.append_nil _)
  have hparameters : Sql.parameters i.lexemes =
      (List.range' (0 + 1) cells.flatten.length).map some := by
    rw [i.parameters_lexemes, flatten_numberTuples]
  rw [Sql.lexemes, hscan, Sql.enumerate_shown style hparameters]
  constructor
  · intro h
    exact (Sql.Insertion.lexemes_injective h).symm
  · rintro rfl
    rfl

/-- **What is drafted of stored rows** is read as an insertion of them. -/
theorem inserts_of_stored {call : Call ε} {table : String} (htable : call.table? = some table)
    {rows : List Value} {stored : List StoredRow}
    (hstored : List.Forall₂ (StoredAs s.arrays) rows stored) {columns : List String}
    (hnodup : columns.Nodup)
    (hcolumns : ∀ c, c ∈ columns ↔ ∃ row ∈ stored, c ∈ row.map (·.1))
    {cells : List (List Value)} (hlength : cells.length = stored.length)
    (hwidth : ∀ vs ∈ cells, vs.length = columns.length) (returning : Bool) :
    Inserts call rows
      ⟨sentence (texts s.dialect.style 0
        [.insertHead table columns, .tuples cells, .returned returning]), cells.flatten⟩
      ⟨table, columns, numberTuples 0 cells, returning⟩ := by
  have hlengths := map_length_numberTuples 0 cells
  obtain ⟨hkeys, hnamed⟩ := columns_of_storedAs hstored
  -- the fields in turn: what is read, the table, the keys, the columns, the tuples
  constructor
  · dsimp only
    exact lexemes_insert s.dialect.style table columns cells returning
  · exact htable
  · exact hkeys
  · exact fun column => (hcolumns column).trans (hnamed column)
  · exact hnodup
  · have hcount := congrArg List.length hlengths
    rw [List.length_map, List.length_map] at hcount
    rw [hcount, hlength, hstored.length_eq]
  · intro numbers hnumbers
    have hmem : numbers.length ∈ cells.map List.length := hlengths ▸ List.mem_map_of_mem hnumbers
    obtain ⟨vs, hvs, heq⟩ := List.mem_map.mp hmem
    rw [← heq, hwidth vs hvs]
  · exact flatten_numberTuples 0 cells

/-- **What is executed for rows** is an insertion of them. -/
theorem exists_inserts {call : Call ε} {rows : List Value} (hrows : call.insertedRows? = some rows)
    {stmt : Statement} {e : Expectation ε} (h : (s.prepare call).result = .ok (.send stmt e)) :
    ∃ i, Inserts call rows stmt i := by
  have hcall : call.table?.isSome := by
    cases call <;> first | rfl | cases hrows
  obtain ⟨ds, params, hdrafts, rfl⟩ := exists_draft hcall h
  cases hdrafts with
  | @insert table data returning row hrow =>
    -- one row is drafted as a list of one
    obtain rfl := Option.some.inj hrows
    have htable : (.insert table data returning : Call ε).table? = some table := rfl
    have hcolumns : ∀ c, c ∈ row.map (·.1) ↔ ∃ stored ∈ [row], c ∈ stored.map (·.1) := by
      simp
    -- each tuple has a cell for every column of all rows
    have hwidth : ∀ vs ∈ [row.map (·.2)], vs.length = (row.map (·.1)).length := by
      simp
    have hinserts := inserts_of_stored htable (.cons hrow .nil) hrow.nodup hcolumns rfl hwidth
      returning
    have hparameters : [row.map (·.2)].flatten = row.map (·.2) := by
      simp
    rw [hparameters] at hinserts
    exact ⟨_, hinserts⟩
  | @bulkInsert table _ returning _ stored columns cells hitems hstored hnodup hcolumns hcells =>
    obtain rfl := Option.some.inj (hitems.symm.trans hrows)
    have hwidth : ∀ vs ∈ cells, vs.length = columns.length := by
      intro vs hvs
      obtain ⟨row, hrow⟩ := exists_of_mem_right hcells hvs
      exact hrow.length_eq.symm
    exact ⟨_, inserts_of_stored rfl hstored hnodup hcolumns hcells.length_eq.symm hwidth returning⟩
  | _ => cases hrows

/-- **When an insertion is one that a store takes**: some key of some row is set, and all keys that
are set have a letter or digit. -/
theorem Inserts.wellFormed_iff {call : Call ε} {rows : List Value} {stmt : Statement}
    {i : Sql.Insertion} (h : Inserts call rows stmt i) :
    i.WellFormed ↔ (∃ row ∈ rows, row.setKeys ≠ []) ∧
      ∀ row ∈ rows, ∀ k ∈ row.setKeys, k.HasName := by
  constructor
  · -- a column of the insertion comes from a key that is set
    intro hi
    constructor
    · obtain ⟨column, hcolumn⟩ := List.exists_mem_of_ne_nil _ hi.columns_ne_nil
      obtain ⟨row, hrow, k, hk, -⟩ := (h.columns column).mp hcolumn
      exact ⟨row, hrow, List.ne_nil_of_mem hk⟩
    · intro row hrow k hk
      obtain ⟨column, hcolumn⟩ := h.keys row hrow k hk
      have hmem : column ∈ i.columns := (h.columns column).mpr ⟨row, hrow, k, hk, hcolumn⟩
      exact (Value.hasName_iff hcolumn).mpr (hi.name_ne column hmem)
  · rintro ⟨⟨row, hrow, hset⟩, hnamed⟩
    obtain ⟨k, hk⟩ := List.exists_mem_of_ne_nil _ hset
    obtain ⟨column, hcolumn⟩ := h.keys row hrow k hk
    constructor
    · exact List.ne_nil_of_mem ((h.columns column).mpr ⟨row, hrow, k, hk, hcolumn⟩)
    · intro column hmem
      obtain ⟨row, hrow, k, hk, hcolumn⟩ := (h.columns column).mp hmem
      exact (Value.hasName_iff hcolumn).mp (hnamed row hrow k hk)
    · exact h.nodup
    · -- without tuples there would be no rows
      intro hnil
      have hnone : rows.length = 0 := by
        rw [← h.tuples, hnil]
        rfl
      exact List.ne_nil_of_mem hrow (List.length_eq_zero_iff.mp hnone)
    · exact h.width

/-- **What an executed `INSERT` is.** For any session, and any row or rows in any spelling, with any
entries unset, the statement that is executed is read as one insertion and no other:

* it is into the table of the call, in the columns that the set keys of all rows name, and no two of
  these are alike;
* it has a tuple for each row, and in each tuple a placeholder for each column, numbered from one
  through all tuples, one for each parameter;
* it is one that a store takes exactly if some key of some row is set and every key that is set has
  an ASCII letter or digit in it.
-/
theorem insertion_of_executed {call : Call ε} {rows : List Value}
    (hrows : call.insertedRows? = some rows) {replies : List Reply} {stmt : Statement}
    (h : .executed stmt ∈ (s.run call replies).events) :
    ∃ i, Inserts call rows stmt i ∧
      (i.WellFormed ↔ (∃ row ∈ rows, row.setKeys ≠ []) ∧
        ∀ row ∈ rows, ∀ k ∈ row.setKeys, k.HasName) := by
  obtain ⟨e, hsend⟩ := send_of_executed h
  obtain ⟨i, hinserts⟩ := exists_inserts hrows hsend
  exact ⟨i, hinserts, hinserts.wellFormed_iff⟩

/-- A session that numbers no placeholders. -/
def embedded : Session := ⟨{ dialect := .sqlite }, [], none⟩

/-- Rows with different keys, of which some are not set. -/
def raggedPets : List Value :=
  [.map [(.text "name", .text "Rex"), (.text "age", .unset)],
    .map [(.text "!!", .unset), (.text "ownerId", .int 7)]]

/-- The statement that inserts them. -/
def raggedStatement : Statement :=
  ⟨"INSERT INTO \"pets\" (\"name\",\"owner_id\") VALUES (?,?),(?,?) RETURNING *",
    [.text "Rex", .null, .null, .int 7]⟩

/-- Every row has a value for the columns of all, and keys that are not set do not count. -/
theorem insertion_of_executed_of_ragged :
    let i : Sql.Insertion := ⟨"pets", ["name", "owner_id"], [[1, 2], [3, 4]], true⟩
    let call : Call Unit := .bulkInsert "pets" (.list raggedPets) true
    (embedded.run call []).events = [.entered, .executed raggedStatement, .committed] ∧
    Inserts call raggedPets raggedStatement i ∧ i.WellFormed := by
  intro i call
  have hevents : (embedded.run call []).events =
      [.entered, .executed raggedStatement, .committed] := by
    rfl
  have hexecuted : .executed raggedStatement ∈ (embedded.run call []).events :=
    hevents ▸ List.mem_cons_of_mem _ List.mem_cons_self
  have hnamed : ∀ row ∈ raggedPets, ∀ k ∈ row.setKeys, k.HasName := by
    decide
  -- what is read of the statement is one insertion, so it is the one that the theorem gives
  have hread : Sql.lexemes 0 raggedStatement.sql = i.lexemes :=
    (lexemes_insert .question "pets" ["name", "owner_id"]
      [[.text "Rex", .null], [.null, .int 7]] true i).mpr rfl
  obtain ⟨j, hinserts, hwell⟩ := insertion_of_executed rfl hexecuted
  obtain rfl := (hinserts.read i).mp hread
  exact ⟨hevents, hinserts, hwell.mpr ⟨⟨_, List.mem_cons_self, List.cons_ne_nil _ _⟩, hnamed⟩⟩

/-- **A row with nothing set is sent**, as an insertion into no column, which no store takes; so is
one with a key that has no letter or digit, into a column without a name. An update with nothing to
set is not sent. -/
theorem not_wellFormed_of_nothing :
    let row (es : Entries) : Call Unit := .insert "pets" (.map es) false
    let change : Call Unit := .update "pets" (.map []) (.map [(.text "id", .int 1)]) false
    (embedded.run (row []) []).events =
      [.entered, .executed ⟨"INSERT INTO \"pets\" () VALUES ()", []⟩, .committed] ∧
    (∀ i : Sql.Insertion, Sql.lexemes 0 "INSERT INTO \"pets\" () VALUES ()" = i.lexemes →
      ¬ i.WellFormed) ∧
    (embedded.run (row [(.text "!!", .int 1)]) []).events =
      [.entered, .executed ⟨"INSERT INTO \"pets\" (\"\") VALUES (?)", [.int 1]⟩, .committed] ∧
    (∀ i : Sql.Insertion, Sql.lexemes 0 "INSERT INTO \"pets\" (\"\") VALUES (?)" = i.lexemes →
      ¬ i.WellFormed) ∧
    (embedded.run change []).events = [] := by
  intro row change
  -- both statements can be read, as an insertion no store takes
  have hnone : Sql.lexemes 0 "INSERT INTO \"pets\" () VALUES ()" =
      (⟨"pets", [], [[]], false⟩ : Sql.Insertion).lexemes :=
    (lexemes_insert .question "pets" [] [[]] false _).mpr rfl
  have hunnamed : Sql.lexemes 0 "INSERT INTO \"pets\" (\"\") VALUES (?)" =
      (⟨"pets", [""], [[1]], false⟩ : Sql.Insertion).lexemes :=
    (lexemes_insert .question "pets" [""] [[.int 1]] false _).mpr rfl
  refine ⟨rfl, fun i hi hwell => ?_, rfl, fun i hi hwell => ?_, rfl⟩
  · obtain rfl := Sql.Insertion.lexemes_injective (hnone.symm.trans hi)
    exact hwell.columns_ne_nil rfl
  · obtain rfl := Sql.Insertion.lexemes_injective (hunnamed.symm.trans hi)
    exact hwell.name_ne "" List.mem_cons_self rfl

end Session

end BoundSql
