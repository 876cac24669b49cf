import BoundSql.Proofs.Session.Transaction
import Mathlib.Algebra.GroupWithZero.Nat

/-!
# The protocol of a session

Calls follow one another, each against the replies that the calls before it have left. Whatever the
calls are and whatever the driver replies, every call keeps the same protocol (`Session.Lawful`):
its events are those of one transaction or none, and what it comes to depends on the earlier calls
only through the replies they took.

* `Session.Unbuildable` — the calls that cannot be prepared, with their errors: values that cannot
  be iterated over, filters that do not compile, rows that cannot be inserted, writes without a
  filter;
* `Session.lawful_run` — one call, against any replies;
* `Session.runs_append` — a run goes on with the replies that its first part has left;
* `Session.runs_lawful` — any call of any run.
-/

namespace BoundSql

/-- Whether an event takes a reply from the driver: a transaction is entered or refused. -/
def Event.takesReply : Event → Bool
  | entered | refused => true
  | _ => false

/-- How many replies a call took. -/
def Session.Outcome.used {ε : Type} (o : Session.Outcome ε) : Nat :=
  o.events.countP Event.takesReply

namespace Session

variable {ε : Type} {s : Session} {call : Call ε}

/-! ### Calls that cannot be prepared -/

/-- The filter of a write is not let through: it does not compile, or it leaves no clause although
not all rows may be affected. -/
def Unfiltered (s : Session) (statement table : String) (filters : Value) (allowAll : Bool)
    (offset : Nat) (e : Error) : Prop :=
  (s.compiler.filter offset filters).result = .error e ∨
    ∃ r, (s.compiler.filter offset filters).result = .ok r ∧ r.whereClause = "" ∧
      allowAll = false ∧ e = .build (.unfilteredWrite statement table)

/-- **Whether a call cannot be prepared** and gives an error instead. -/
def Unbuildable (s : Session) : Call ε → Error → Prop
  | .probe, _ | .close, _ => False
  | .query _ values, e | .many _ values, e | .one _ values _, e =>
    values.items? = none ∧ e = .misuse (.notIterable values.qualifiedTypeName)
  | .getAll _ filters _, e | .get _ _ filters _, e =>
    (s.compiler.filter 0 filters).result = .error e
  | .search _ data textFields, e =>
    (s.compiler.selectRaw { textFields := textFields } data).result = .error e
  | .insert _ data _, e => InsertPlan.single s.dialect 0 s.arrays data = .error e
  | .bulkInsert _ rows _, e =>
    rows.isEmpty = false ∧ InsertPlan.bulk s.dialect 0 s.arrays true rows = .error e
  | .update table data filters allowAll, e =>
    storedRow s.arrays data = .error e ∨
      ∃ changes, storedRow s.arrays data = .ok changes ∧ changes.isEmpty = false ∧
        s.Unfiltered "UPDATE" table filters allowAll changes.length e
  | .delete table filters allowAll, e => s.Unfiltered "DELETE" table filters allowAll 0 e

theorem writeFilter_eq_error_iff {statement table : String} {filters : Value} {allowAll : Bool}
    {offset : Nat} {e : Error} :
    (s.writeFilter statement table filters allowAll offset).result = .error e ↔
      s.Unfiltered statement table filters allowAll offset e := by
  unfold writeFilter
  rw [Report.result_bind_eq_error]
  refine or_congr_right (exists_congr fun r => and_congr_right fun _ => ?_)
  -- a filter that compiles is refused for its clause alone
  split
  · rename_i hclause
    obtain ⟨hempty, hall⟩ : r.whereClause = "" ∧ allowAll = false := by simpa using hclause
    simp [hempty, hall, eq_comm]
  · rename_i hclause
    have hlet : r.whereClause = "" → allowAll = true := by simpa using hclause
    constructor
    · intro h
      cases h
    · rintro ⟨hempty, hall, -⟩
      cases hall.symm.trans (hlet hempty)

theorem given_eq_error_iff {sql : String} {values : Value} {x : Expectation ε} {e : Error} :
    given sql values x = .error e ↔
      values.items? = none ∧ e = .misuse (.notIterable values.qualifiedTypeName) := by
  unfold given
  cases values.items? with
  | none => simp [eq_comm]
  | some vs => simp

theorem prepareUpdate_eq_error_iff {table : String} {data filters : Value} {allowAll : Bool}
    {e : Error} :
    (s.prepareUpdate table data filters allowAll : Report Error (Prepared ε)).result = .error e ↔
      s.Unbuildable (.update table data filters allowAll : Call ε) e := by
  unfold prepareUpdate
  rw [Report.result_bind_eq_error]
  refine or_congr Iff.rfl (exists_congr fun changes => and_congr_right fun _ => ?_)
  cases changes.isEmpty with
  | true =>
    -- nothing to set is answered, whatever the filter is
    constructor
    · intro h
      cases h
    · rintro ⟨hempty, -⟩
      cases hempty
  | false =>
    rw [and_iff_right rfl, ← writeFilter_eq_error_iff]
    exact Report.result_map_eq_error

/-- **What cannot be prepared** gives its error, and only that gives one. -/
theorem prepare_eq_error_iff {e : Error} :
    (s.prepare call).result = .error e ↔ s.Unbuildable call e := by
  -- each kind of call is prepared in its own way; three of them take their statement as given
  cases call with
  | probe => exact Iff.intro (fun h => nomatch h) False.elim
  | close => exact Iff.intro (fun h => nomatch h) False.elim
  | query sql values => exact given_eq_error_iff
  | many sql values => exact given_eq_error_iff
  | one sql values notSingle => exact given_eq_error_iff
  | getAll table filters notSingle => exact Report.result_map_eq_error
  | get table fields filters notSingle => exact Report.result_map_eq_error
  | search table data textFields => exact Report.result_map_eq_error
  | insert table data returning => exact Report.except_map_eq_error
  | bulkInsert table rows returning =>
    show s.prepareBulkInsert table rows returning = .error e ↔
      rows.isEmpty = false ∧ InsertPlan.bulk s.dialect 0 s.arrays true rows = .error e
    unfold prepareBulkInsert
    cases rows.isEmpty with
    | true => simp
    | false =>
      rw [and_iff_right rfl]
      exact Report.except_map_eq_error
  | update table data filters allowAll => exact prepareUpdate_eq_error_iff
  | delete table filters allowAll =>
    exact Report.result_map_eq_error.trans writeFilter_eq_error_iff

/-! ### One call -/

/-- **The events of a call**, given the next reply of the driver: none, those of one transaction, or
the end of the session. -/
inductive Transacted (call : Call ε) (reply : Reply) : List Event → Prop
  | idle : call ≠ .close → Transacted call reply []
  | refused {f : Failure} : call ≠ .close → reply = .refused f → Transacted call reply [.refused]
  | rolledBack {stmt : Statement} {f : Failure} : call ≠ .close → reply = .failed f →
    Transacted call reply [.entered, .executed stmt, .rolledBack]
  | committed {stmt : Statement} {rows : List Value} {returnsRows : Bool} {count : Int} :
    call ≠ .close → reply = .result rows returnsRows count →
    Transacted call reply [.entered, .executed stmt, .committed]
  | disposed : call = .close → Transacted call reply [.disposed]

/-- **The protocol of a call** that finds the given replies: what is known of its outcome. -/
structure Lawful (s : Session) (call : Call ε) (left : List Reply) (o : Outcome ε) : Prop where
  /-- One transaction, or none. -/
  transacted : Transacted call (left.headD silentReply) o.events
  /-- The call leaves the replies behind those it took. -/
  replies : o.replies = left.drop o.used
  /-- What is entered is committed if the driver does not fail. -/
  committed_iff : .committed ∈ o.events ↔
    .entered ∈ o.events ∧ (left.headD silentReply).failure? = none
  /-- What cannot be prepared leaves the driver alone, and nothing else fails without it. -/
  unbuildable_iff : ∀ e, s.Unbuildable call e ↔
    o.events = [] ∧ o.replies = left ∧ o.report.result = .error (.library e)
  /-- A failure of the driver surfaces as it is. -/
  driver_iff : call ≠ .probe → ∀ f, o.report.result = .error (.driver f) ↔
    o.used = 1 ∧ (left.headD silentReply).failure? = some f
  /-- A probe lets those failures surface that do not say that the store cannot be reached. -/
  probe_driver_iff : call = .probe → ∀ f, o.report.result = .error (.driver f) ↔
    (left.headD silentReply).failure? = some f ∧ f.isConnectivity = false
  /-- The others it turns into a connectivity error. -/
  probe_unreachable_iff : call = .probe → ∀ text,
    o.report.result = .error (.library (.build (.connectivity text))) ↔
      ∃ f, (left.headD silentReply).failure? = some f ∧ f.isConnectivity = true ∧
        s.unreachable f = .build (.connectivity text)

/-- A call that is sent is not the end of the session. -/
theorem ne_close_of_send {stmt : Statement} {x : Expectation ε}
    (h : (s.prepare call).result = .ok (.send stmt x)) : call ≠ .close := by
  rintro rfl
  cases h

theorem Transacted.committed_iff {reply : Reply} {events : List Event}
    (h : Transacted call reply events) :
    .committed ∈ events ↔ .entered ∈ events ∧ reply.failure? = none := by
  cases h with
  | idle hcall => simp
  | refused hcall hreply => simp
  | rolledBack hcall hreply => simp [hreply, Reply.failure?]
  | committed hcall hreply => simp [hreply, Reply.failure?]
  | disposed hcall => simp

/-- Rows that are rejected are no failure of the driver. -/
theorem not_rowsRejected_driver {rows : List Value} {f : Failure} :
    ¬ RowsRejected call rows (.driver f) := by
  intro h
  cases h

namespace Ran

variable {replies : List Reply} {o : Outcome ε}

theorem transacted (h : s.Ran call replies o) :
    Transacted call (replies.headD silentReply) o.events := by
  cases h with
  | unprepared hready =>
    -- closing needs no preparation that could fail
    refine .idle ?_
    rintro rfl
    cases hready
  | answered hready => exact .idle (prepare_admits hready)
  | closed hready => exact .disposed (prepare_admits hready)
  | refused hready hreply => exact .refused (ne_close_of_send hready) hreply
  | rolledBack hready hreply => exact .rolledBack (ne_close_of_send hready) hreply
  | committed hready hreply => exact .committed (ne_close_of_send hready) hreply

/-- **A call takes its replies from the front**: one if it is sent, and none otherwise. -/
theorem replies_eq (h : s.Ran call replies o) : o.replies = replies.drop o.used := by
  cases h with
  | unprepared hready => rfl
  | answered hready => rfl
  | closed hready => rfl
  | refused hready hreply => exact List.drop_one.symm
  | rolledBack hready hreply => exact List.drop_one.symm
  | committed hready hreply => exact List.drop_one.symm

/-- What fails without an event could not be prepared. -/
theorem unbuildable_iff (h : s.Ran call replies o) (e : Error) :
    s.Unbuildable call e ↔
      o.events = [] ∧ o.replies = replies ∧ o.report.result = .error (.library e) := by
  rw [← prepare_eq_error_iff]
  cases h with
  | unprepared hready => simp [hready]
  | answered hready => simp [hready]
  | closed hready => simp [hready]
  | refused hready hreply => simp [hready]
  | rolledBack hready hreply => simp [hready]
  | committed hready hreply => simp [hready]

/-- **A failure of the driver surfaces as it is** from every call but a probe, and nothing else
surfaces as one. -/
theorem driver_iff (h : s.Ran call replies o) (hcall : call ≠ .probe) (f : Failure) :
    o.report.result = .error (.driver f) ↔
      o.used = 1 ∧ (replies.headD silentReply).failure? = some f := by
  have hversion : ∀ {stmt x}, (s.prepare call).result = .ok (.send stmt x) → x ≠ .version := by
    rintro stmt x hready rfl
    exact hcall (eq_probe_of_version (prepare_admits hready))
  cases h with
  | unprepared hready => simp [Outcome.used]
  | answered hready => simp [Outcome.used]
  | closed hready => simp [Outcome.used, Event.takesReply]
  | refused hready hreply =>
    rw [hreply, Report.after, failure_of_ne_version (hversion hready), Outcome.used]
    simp [Event.takesReply, Reply.failure?]
  | rolledBack hready hreply =>
    rw [hreply, Report.after, failure_of_ne_version (hversion hready), Outcome.used]
    simp [List.countP_cons, Event.takesReply, Reply.failure?]
  | committed hready hreply =>
    -- the driver has not failed, and what is wrong with the rows is not its failure
    rw [hreply]
    constructor
    · intro hresult
      have hrejected := (answer_eq_error_iff (prepare_admits hready)).mp hresult
      exact absurd hrejected not_rowsRejected_driver
    · rintro ⟨-, hfailure⟩
      cases hfailure

/-- **What a probe comes to**: the driver failed, and the probe says so in its own way, or the rows
of the driver have what the probe makes of them. -/
theorem probe_cases (h : s.Ran .probe replies o) :
    (∃ f, (replies.headD silentReply).failure? = some f ∧ o.report.result =
      .error (if f.isConnectivity then .library (s.unreachable f) else .driver f)) ∨
    ((replies.headD silentReply).failure? = none ∧
      ∀ err, o.report.result = .error err → ∃ rows, RowsRejected .probe rows err) := by
  -- a probe is always sent, so only the three ways of an exchange are left
  cases h with
  | unprepared hready => cases hready
  | answered hready => cases hready
  | closed hready => cases hready
  | refused hready hreply =>
    cases hready
    exact .inl ⟨_, by rw [hreply]; rfl, failure_of_version _⟩
  | rolledBack hready hreply =>
    cases hready
    exact .inl ⟨_, by rw [hreply]; rfl, failure_of_version _⟩
  | committed hready hreply =>
    refine .inr ⟨by rw [hreply]; rfl, fun err hresult => ?_⟩
    exact ⟨_, (answer_eq_error_iff (prepare_admits hready)).mp hresult⟩

theorem probe_driver_iff (h : s.Ran .probe replies o) (f : Failure) :
    o.report.result = .error (.driver f) ↔
      (replies.headD silentReply).failure? = some f ∧ f.isConnectivity = false := by
  rcases h.probe_cases with ⟨f', hfailure, hresult⟩ | ⟨hfailure, hrows⟩
  · rw [hfailure, hresult]
    -- a failure to connect is reported as one of the library
    cases hreach : f'.isConnectivity with
    | true =>
      constructor
      · intro heq
        cases heq
      · rintro ⟨heq, hreach'⟩
        obtain rfl := Option.some.inj heq
        cases hreach.symm.trans hreach'
    | false =>
      constructor
      · intro heq
        cases heq
        exact ⟨rfl, hreach⟩
      · rintro ⟨heq, -⟩
        obtain rfl := Option.some.inj heq
        rfl
  · -- without a failure of the driver only its rows can be rejected
    constructor
    · intro hresult
      obtain ⟨rows, hrejected⟩ := hrows _ hresult
      exact absurd hrejected not_rowsRejected_driver
    · rintro ⟨hsome, -⟩
      cases hfailure.symm.trans hsome

theorem probe_unreachable_iff (h : s.Ran .probe replies o) (text : String) :
    o.report.result = .error (.library (.build (.connectivity text))) ↔
      ∃ f, (replies.headD silentReply).failure? = some f ∧ f.isConnectivity = true ∧
        s.unreachable f = .build (.connectivity text) := by
  rcases h.probe_cases with ⟨f', hfailure, hresult⟩ | ⟨hfailure, hrows⟩
  · rw [hfailure, hresult]
    -- only a failure to connect is put in the words of the library
    cases hreach : f'.isConnectivity with
    | true =>
      constructor
      · intro heq
        cases heq
        exact ⟨f', rfl, hreach, rfl⟩
      · rintro ⟨f, heq, -, htext⟩
        obtain rfl := Option.some.inj heq
        rw [if_pos rfl, htext]
    | false =>
      constructor
      · intro heq
        cases heq
      · rintro ⟨f, heq, hreach', -⟩
        obtain rfl := Option.some.inj heq
        cases hreach.symm.trans hreach'
  · constructor
    · intro hresult
      -- a probe that rejects rows gives another error of the library
      obtain ⟨rows, hrejected⟩ := hrows _ hresult
      cases hrejected
    · rintro ⟨f, hsome, -⟩
      cases hfailure.symm.trans hsome

end Ran

/-- **Every call keeps the protocol**, whatever replies it finds. -/
theorem lawful_run (s : Session) (call : Call ε) (replies : List Reply) :
    s.Lawful call replies (s.run call replies) where
  transacted := (s.ran call replies).transacted
  replies := (s.ran call replies).replies_eq
  committed_iff := (s.ran call replies).transacted.committed_iff
  unbuildable_iff := (s.ran call replies).unbuildable_iff
  driver_iff := (s.ran call replies).driver_iff
  probe_driver_iff := by
    rintro rfl
    exact (s.ran .probe replies).probe_driver_iff
  probe_unreachable_iff := by
    rintro rfl
    exact (s.ran .probe replies).probe_unreachable_iff

/-! ### Runs -/

/-- What calls come to one after the other, each with the replies that are left for it. -/
def runs (s : Session) : List (Call ε) → List Reply → List (Outcome ε)
  | [], _ => []
  | call :: calls, replies =>
    let o := s.run call replies
    o :: s.runs calls o.replies

/-- How many replies calls took. -/
def used (os : List (Outcome ε)) : Nat := (os.map Outcome.used).sum

theorem runs_cons (s : Session) (call : Call ε) (calls : List (Call ε)) (replies : List Reply) :
    s.runs (call :: calls) replies =
      s.run call replies :: s.runs calls (replies.drop (s.run call replies).used) := by
  rw [runs, (s.ran call replies).replies_eq]

/-- **A run goes on with the replies that its first part has left.** -/
theorem runs_append (s : Session) (earlier later : List (Call ε)) (replies : List Reply) :
    s.runs (earlier ++ later) replies =
      s.runs earlier replies ++ s.runs later (replies.drop (used (s.runs earlier replies))) := by
  induction earlier generalizing replies with
  | nil => rfl
  | cons call earlier ih =>
    let o := s.run call replies
    let left := replies.drop o.used
    -- the first call takes its replies, and the calls behind it take theirs of what is left
    have hused : used (s.runs (call :: earlier) replies) =
        o.used + used (s.runs earlier left) := by
      rw [runs_cons, used, List.map_cons, List.sum_cons]
      rfl
    calc
      s.runs (call :: earlier ++ later) replies = o :: s.runs (earlier ++ later) left := by
        rw [List.cons_append, runs_cons]
      _ = o :: (s.runs earlier left ++
          s.runs later (left.drop (used (s.runs earlier left)))) := by
        rw [ih]
      _ = s.runs (call :: earlier) replies ++
          s.runs later (replies.drop (used (s.runs (call :: earlier) replies))) := by
        rw [hused, ← List.drop_drop, runs_cons, List.cons_append]

/-- **Every call of every run keeps the protocol.** Any call of a run comes to what it comes to by
itself, against the replies that are left when the calls before it have taken theirs; the calls
behind it find the replies it leaves. -/
theorem runs_lawful (s : Session) (earlier : List (Call ε)) (call : Call ε)
    (later : List (Call ε)) (replies : List Reply) :
    let left := replies.drop (used (s.runs earlier replies))
    let o := s.run call left
    s.runs (earlier ++ call :: later) replies =
      s.runs earlier replies ++ o :: s.runs later (left.drop o.used) ∧
    s.Lawful call left o := by
  intro left o
  refine ⟨?_, s.lawful_run call left⟩
  rw [runs_append, runs_cons]

end Session

end BoundSql
