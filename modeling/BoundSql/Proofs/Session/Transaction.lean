import BoundSql.Proofs.Session.Run

/-!
# One transaction, or none

A call that cannot be prepared, or that is answered already, leaves the driver alone. Any other call
gets the next reply of the driver for its one statement, and the reply alone decides how the
transaction ends: it is refused, rolled back, or committed. What is made of the rows comes after
that, so a call can fail although its transaction is committed.

* `Session.Ran` — what a call comes to, one constructor for every way it can go;
* `Session.prepare_admits` — which calls close, are answered, or are sent, and what they expect;
* `Session.committed_iff_of_error` — a call that fails is committed exactly where its rows are
  rejected: there are not as many as wanted, or the store does not show its version.
-/

namespace BoundSql

/-- The failure a driver replies with, if it does. -/
def Reply.failure? : Reply → Option Failure
  | refused f | failed f => some f
  | result _ _ _ => none

/-- What is made of the result of a call; nothing is expected of closing. -/
def Call.expectation? {ε : Type} : Call ε → Option (Expectation ε)
  | probe => some .version
  | close => none
  | query _ _ => some .result
  | one _ _ notSingle => some (.exactlyOne notSingle)
  | getAll _ _ notSingle | get _ _ _ notSingle => some (Session.readExpectation notSingle)
  | update _ _ _ _ | delete _ _ _ => some .count
  | many _ _ | search _ _ _ | insert _ _ _ | bulkInsert _ _ _ => some .rows

/-- The error a call gives for a result without exactly one row, if it wants one row. -/
def Call.notSingle? {ε : Type} : Call ε → Option ε
  | one _ _ notSingle => some notSingle
  | getAll _ _ notSingle | get _ _ _ notSingle => notSingle
  | _ => none

/-- Whether a call may be prepared as something. -/
def Call.Admits {ε : Type} (call : Call ε) : Prepared ε → Prop
  | .done _ => call ≠ .close
  | .dispose => call = .close
  | .send _ x => call.expectation? = some x

namespace Session

variable {ε : Type} {s : Session} {call : Call ε} {replies : List Reply}

/-! ### The ways a call can go -/

/-- **What a call comes to.** Besides the answer or the error, each way has its events and its
replies left over. -/
inductive Ran (s : Session) (call : Call ε) (replies : List Reply) : Outcome ε → Prop
  /-- The call cannot be prepared. -/
  | unprepared {e : Error} : (s.prepare call).result = .error e →
    Ran s call replies ⟨[], ⟨(s.prepare call).notices, .error (.library e)⟩, replies⟩
  /-- There is nothing to be done. -/
  | answered {a : Answer} : (s.prepare call).result = .ok (.done a) →
    Ran s call replies ⟨[], ⟨(s.prepare call).notices, .ok a⟩, replies⟩
  | closed : (s.prepare call).result = .ok .dispose →
    Ran s call replies ⟨[.disposed], ⟨(s.prepare call).notices, .ok .nothing⟩, replies⟩
  | refused {stmt : Statement} {x : Expectation ε} {f : Failure} :
    (s.prepare call).result = .ok (.send stmt x) → replies.headD silentReply = .refused f →
    Ran s call replies
      ⟨[.refused], .after (s.prepare call).notices (s.failure f x), replies.tail⟩
  | rolledBack {stmt : Statement} {x : Expectation ε} {f : Failure} :
    (s.prepare call).result = .ok (.send stmt x) → replies.headD silentReply = .failed f →
    Ran s call replies
      ⟨[.entered, .executed stmt, .rolledBack],
        .after (s.prepare call).notices (s.failure f x), replies.tail⟩
  /-- The rows are looked at when the transaction is over. -/
  | committed {stmt : Statement} {x : Expectation ε} {rows : List Value} {returnsRows : Bool}
      {count : Int} :
    (s.prepare call).result = .ok (.send stmt x) →
    replies.headD silentReply = .result rows returnsRows count →
    Ran s call replies
      ⟨[.entered, .executed stmt, .committed],
        .after (s.prepare call).notices (s.answer ⟨if returnsRows then rows else [], count⟩ x),
        replies.tail⟩

/-- **Every call goes one of these ways.** -/
theorem ran (s : Session) (call : Call ε) (replies : List Reply) :
    Ran s call replies (s.run call replies) := by
  cases hready : (s.prepare call).result with
  | error e =>
    simp only [run, hready]
    exact .unprepared hready
  | ok p =>
    -- what can be answered without the driver is answered; a closing is no transaction
    cases p with
    | done a =>
      simp only [run, hready]
      exact .answered hready
    | dispose =>
      simp only [run, hready]
      exact .closed hready
    | send stmt x =>
      -- what is sent goes as the driver replies: refused, failed or executed
      cases hreply : replies.headD silentReply with
      | refused f =>
        simp only [run, hready, hreply, exchange]
        exact .refused hready hreply
      | failed f =>
        simp only [run, hready, hreply, exchange]
        exact .rolledBack hready hreply
      | result rows returnsRows count =>
        simp only [run, hready, hreply, exchange]
        exact .committed hready hreply

/-! ### What calls are prepared as -/

/-- What is built first and then sent is sent. -/
theorem admits_of_map {β : Type} {r : Report Error β} {stmt : β → Statement} {x : Expectation ε}
    (hx : call.expectation? = some x) {p : Prepared ε}
    (h : (r.map fun b => Prepared.send (stmt b) x).result = .ok p) : call.Admits p := by
  obtain ⟨b, -, rfl⟩ := Report.result_map_eq_ok.mp h
  exact hx

/-- A statement that is given is sent. -/
theorem admits_of_given {sql : String} {values : Value} {x : Expectation ε}
    (hx : call.expectation? = some x) {p : Prepared ε} (h : given sql values x = .ok p) :
    call.Admits p := by
  unfold given at h
  split at h
  · cases h
    exact hx
  · cases h

/-- **What a call may be prepared as.** -/
theorem prepare_admits {p : Prepared ε} (h : (s.prepare call).result = .ok p) :
    call.Admits p := by
  cases call with
  | probe =>
    cases h
    rfl
  | close =>
    cases h
    rfl
  | query sql values => exact admits_of_given rfl h
  | many sql values => exact admits_of_given rfl h
  | one sql values notSingle => exact admits_of_given rfl h
  | getAll table filters notSingle => exact admits_of_map rfl h
  | get table fields filters notSingle => exact admits_of_map rfl h
  | search table data textFields => exact admits_of_map rfl h
  | insert table data returning =>
    obtain ⟨plan, -, rfl⟩ := Report.except_map_eq_ok.mp h
    rfl
  | bulkInsert table rows returning =>
    have hbulk : s.prepareBulkInsert table rows returning = .ok p := h
    unfold prepareBulkInsert at hbulk
    split at hbulk
    · -- no rows are answered without the driver
      cases hbulk
      exact fun h => nomatch h
    · obtain ⟨plan, -, rfl⟩ := Report.except_map_eq_ok.mp hbulk
      rfl
  | update table data filters allowAll =>
    obtain ⟨changes, -, hready⟩ := Report.result_bind_eq_ok.mp h
    split at hready
    · -- and so are no changes
      cases hready
      exact fun h => nomatch h
    · exact admits_of_map rfl hready
  | delete table filters allowAll => exact admits_of_map rfl h

/-! ### Failures of the driver -/

/-- **A failure of the driver is passed on** from every call but a probe. -/
theorem failure_of_ne_version {f : Failure} {x : Expectation ε} (h : x ≠ .version) :
    (s.failure f x).result = .error (.driver f) := by
  cases x with
  | version => exact absurd rfl h
  | _ => rfl

/-- A probe that cannot reach the store says so. -/
def unreachable (s : Session) (f : Failure) : Error :=
  .build (.connectivity ("Unable to connect to " ++ s.dialect.name ++ " server: " ++ f.text))

/-- **A probe turns the failures that say so** into a connectivity error, and only those. -/
theorem failure_of_version (f : Failure) :
    (s.failure f (.version : Expectation ε)).result =
      .error (if f.isConnectivity then .library (s.unreachable f) else .driver f) := by
  unfold failure
  cases f.isConnectivity with
  | true => rfl
  | false => rfl

/-- Only a probe expects a version. -/
theorem eq_probe_of_version (h : call.expectation? = some .version) : call = .probe := by
  cases call with
  | probe => rfl
  | getAll table filters notSingle => cases notSingle <;> cases h
  | get table fields filters notSingle => cases notSingle <;> cases h
  | _ => cases h

/-! ### Rows that are rejected -/

/-- **The rows of a result that a call rejects**, and the error it gives for them. -/
inductive RowsRejected : Call ε → List Value → CallError ε → Prop
  | notSingle {call : Call ε} {e : ε} {rows : List Value} : call.notSingle? = some e →
    rows.length ≠ 1 → RowsRejected call rows (.notSingle e)
  | noRow : RowsRejected .probe [] (.library (.misuse .noFirstRow))
  | noColumn {row : Value} {rows : List Value} : (∀ e es, row ≠ .map (e :: es)) →
    RowsRejected .probe (row :: rows) (.library (.misuse .noFirstColumn))

/-- A call that wants one row expects exactly one. -/
theorem notSingle?_eq_some_iff {e : ε} :
    call.notSingle? = some e ↔ call.expectation? = some (.exactlyOne e) := by
  cases call with
  | one sql values notSingle => simp [Call.notSingle?, Call.expectation?]
  | getAll table filters notSingle =>
    cases notSingle <;> simp [Call.notSingle?, Call.expectation?, readExpectation]
  | get table fields filters notSingle =>
    cases notSingle <;> simp [Call.notSingle?, Call.expectation?, readExpectation]
  | _ => simp [Call.notSingle?, Call.expectation?]

/-- Only a result without exactly one row has no single row. -/
theorem exactlyOne_eq_error {α : Type} {rows : List α} {e : ε} {n : NotSingle ε} :
    exactlyOne rows e = .error n ↔ rows.length ≠ 1 ∧ ⟨e, rows.length⟩ = n := by
  unfold exactlyOne
  split
  · simp
  · rename_i hother
    have hlength : rows.length ≠ 1 := by
      intro h
      obtain ⟨row, rfl⟩ := List.length_eq_one_iff.mp h
      exact hother row rfl
    simp [hlength]

theorem answer_exactlyOne_eq_error {r : ResultSet} {notSingle : ε} {err : CallError ε} :
    (s.answer r (.exactlyOne notSingle)).result = .error err ↔
      r.rows.length ≠ 1 ∧ .notSingle notSingle = err := by
  unfold answer
  cases hrow : exactlyOne r.rows notSingle with
  | ok row =>
    have hlength : r.rows.length = 1 := by rw [exactlyOne_eq_ok_iff.mp hrow]; rfl
    simp [Report.ok, hrow, hlength]
  | error n =>
    obtain ⟨hlength, rfl⟩ := exactlyOne_eq_error.mp hrow
    simp [Report.fail, hrow, hlength]

/-- Rows without a first one that has a column show no version. -/
theorem versionOf_eq_error {rows : List Value} {e : Error} :
    versionOf rows = .error e ↔ RowsRejected (.probe : Call ε) rows (.library e) := by
  -- no row at all, a first row with a column, and one without
  cases rows with
  | nil =>
    constructor
    · intro h
      cases h
      exact .noRow
    · intro h
      cases h
      rfl
  | cons row rows =>
    unfold versionOf
    split
    · rename_i heq
      cases heq
    · rename_i first rest heq
      cases heq
      split
      · constructor
        · intro h
          cases h
        · intro h
          cases h with
          | noColumn hrow => exact absurd rfl (hrow _ _)
      · -- a row that is no mapping, or an empty one
        rename_i hother
        constructor
        · intro h
          cases h
          exact .noColumn fun e es heq => hother e.1 e.2 es heq
        · intro h
          cases h
          rfl

/-- A probe rejects rows with an error of the library. -/
theorem exists_of_probe_rejects {rows : List Value} {err : CallError ε}
    (h : RowsRejected .probe rows err) : ∃ e, err = .library e := by
  cases h with
  | notSingle hcall hlength => cases hcall
  | noRow => exact ⟨_, rfl⟩
  | noColumn hrow => exact ⟨_, rfl⟩

theorem answer_version_eq_error {r : ResultSet} {err : CallError ε} :
    (s.answer r .version).result = .error err ↔ RowsRejected .probe r.rows err := by
  unfold answer
  -- a probe has no error of the caller, so what rejects its rows is one of the library
  cases hversion : versionOf r.rows with
  | ok v =>
    constructor
    · intro h
      cases h
    · intro h
      obtain ⟨e, rfl⟩ := exists_of_probe_rejects h
      cases hversion.symm.trans (versionOf_eq_error.mpr h)
  | error e =>
    constructor
    · intro h
      cases h
      exact versionOf_eq_error.mp hversion
    · intro h
      obtain ⟨e', rfl⟩ := exists_of_probe_rejects h
      obtain rfl := Except.error.inj (hversion.symm.trans (versionOf_eq_error.mpr h))
      rfl

/-- **A result gives no answer exactly where its rows are rejected.** -/
theorem answer_eq_error_iff {x : Expectation ε} (hx : call.expectation? = some x) {r : ResultSet}
    {err : CallError ε} :
    (s.answer r x).result = .error err ↔ RowsRejected call r.rows err := by
  -- rows are rejected only by a probe or for their number
  have hkinds : RowsRejected call r.rows err → call = .probe ∨ ∃ e, x = .exactlyOne e := by
    intro h
    generalize r.rows = rows at h
    cases h with
    | notSingle hcall hlength =>
      exact .inr ⟨_, Option.some.inj (hx.symm.trans (notSingle?_eq_some_iff.mp hcall))⟩
    | noRow => exact .inl rfl
    | noColumn hrow => exact .inl rfl
  cases x with
  | version =>
    obtain rfl := eq_probe_of_version hx
    exact answer_version_eq_error
  | exactlyOne e =>
    rw [answer_exactlyOne_eq_error]
    have hcall := notSingle?_eq_some_iff.mpr hx
    -- the call has this one error for rows that are too few or too many
    constructor
    · rintro ⟨hlength, rfl⟩
      exact .notSingle hcall hlength
    · intro h
      generalize r.rows = rows at h ⊢
      cases h with
      | notSingle hcall' hlength =>
        obtain rfl := Option.some.inj (hcall'.symm.trans hcall)
        exact ⟨hlength, rfl⟩
      | noRow => cases hcall
      | noColumn hrow => cases hcall
  | _ =>
    constructor
    · intro h
      cases h
    · intro h
      rcases hkinds h with rfl | ⟨e, he⟩
      · cases hx
      · cases he

/-! ### Calls that fail -/

/-- **A call that fails is committed exactly where its rows are rejected.** So a call that fails
before the driver has answered, or because the driver failed, leaves the store as it was; and a
reading or writing call that wants no particular number of rows leaves it so whenever it fails. -/
theorem committed_iff_of_error {s : Session} {call : Call ε} {replies : List Reply}
    {err : CallError ε} (h : (s.run call replies).report.result = .error err) :
    .committed ∈ (s.run call replies).events ↔
      ∃ rows returnsRows count, replies.headD silentReply = .result rows returnsRows count ∧
        RowsRejected call (if returnsRows then rows else []) err := by
  have hran := s.ran call replies
  generalize s.run call replies = o at hran h ⊢
  cases hran with
  | unprepared hready =>
    -- only a probe rejects rows with an error of the library, and a probe is always sent
    cases h
    constructor
    · intro hmem
      cases hmem
    · rintro ⟨rows, returnsRows, count, -, hrejected⟩
      generalize (if returnsRows then rows else []) = fetched at hrejected
      cases hrejected <;> cases hready
  | answered hready => cases h
  | closed hready => cases h
  | refused hready hreply =>
    rw [hreply]
    simp
  | rolledBack hready hreply =>
    rw [hreply]
    simp
  | @committed stmt x rows returnsRows count hready hreply =>
    have hrejected := (answer_eq_error_iff (prepare_admits hready)).mp h
    constructor
    · intro _
      exact ⟨rows, returnsRows, count, hreply, hrejected⟩
    · intro _
      simp

/-- A session with the standard settings. -/
def standardSession : Session := ⟨{}, [], none⟩

/-- An insert that gives back the row it made, as one row. -/
def insertOne : Call Unit :=
  .one "INSERT INTO \"pets\" (\"name\") VALUES ($1) RETURNING *" (.list [.text "Rex"]) ()

/-- A driver that gives back two rows. -/
def twoRows : Reply :=
  let row : Value := .map [(.text "id", .int 1), (.text "name", .text "Rex")]
  .result [row, row] true 2

/-- An insert of too many rows is committed and then fails; one that the driver fails is not. -/
theorem committed_iff_of_error_of_insertOne :
    let s := standardSession
    ((s.run insertOne [twoRows]).report.result = .error (.notSingle ()) ∧
      .committed ∈ (s.run insertOne [twoRows]).events) ∧
    ((s.run insertOne [.failed ⟨.database, "locked"⟩]).report.result =
      .error (.driver ⟨.database, "locked"⟩) ∧
      .committed ∉ (s.run insertOne [.failed ⟨.database, "locked"⟩]).events) := by
  intro s
  have htwo : (s.run insertOne [twoRows]).report.result = .error (.notSingle ()) := rfl
  have hfailed : (s.run insertOne [.failed ⟨.database, "locked"⟩]).report.result =
      .error (.driver ⟨.database, "locked"⟩) := rfl
  refine ⟨⟨htwo, ?_⟩, hfailed, ?_⟩
  · refine (committed_iff_of_error htwo).mpr ⟨_, _, _, rfl, ?_⟩
    exact .notSingle rfl (by decide)
  · -- a commit would need a reply with a result
    intro hmem
    obtain ⟨rows, returnsRows, count, hreply, -⟩ := (committed_iff_of_error hfailed).mp hmem
    cases hreply

/-- Not every call that fails leaves the store as it was. -/
theorem committed_of_insertOne :
    ¬ ∀ (s : Session) (call : Call Unit) (replies : List Reply) (err : CallError Unit),
      (s.run call replies).report.result = .error err →
        .committed ∉ (s.run call replies).events := by
  intro h
  have hfails : (standardSession.run insertOne [twoRows]).report.result =
      .error (.notSingle ()) := rfl
  refine h _ _ _ _ hfails ?_
  -- the commit is the last of the three events
  exact List.mem_cons_of_mem _ (List.mem_cons_of_mem _ (List.mem_cons_self ..))

end Session

end BoundSql
