import BoundSql.Proofs.Session.Protocol

/-!
# One row, or the caller's error

Three calls read rows: one with a statement of the caller's, and two from a table. They may want
exactly one row, and then bring an error of their own for any other number. That error is given for
the number of rows alone, whatever the rows are; failures of the driver and calls that cannot be
prepared have errors of their own.

The calls make their checks in two ways, but what they expect comes down to the error that they
bring (`Session.exists_send_of_fetches`), so what is proved of the answer holds of all three.

* `Session.answer_exactlyOne_eq_ok`, `Session.answer_exactlyOne_eq_error` — the check itself;
* `Session.result_of_send` — what comes of a call that is sent, by the reply of the driver;
* `Session.fetch_outcome` — what comes of a call that reads rows.
-/

namespace BoundSql

/-- Whether a call reads rows: one row for a statement of the caller's, or rows of a table. -/
def Call.Fetches {ε : Type} : Call ε → Prop
  | one _ _ _ | getAll _ _ _ | get _ _ _ _ => True
  | _ => False

namespace Session

variable {ε : Type} {s : Session} {call : Call ε}

/-- **A row is the answer** exactly if it is the only one. -/
theorem answer_exactlyOne_eq_ok {r : ResultSet} {notSingle : ε} {a : Answer} :
    (s.answer r (.exactlyOne notSingle)).result = .ok a ↔ ∃ row, r.rows = [row] ∧ a = .row row := by
  cases hrow : exactlyOne r.rows notSingle with
  | ok row =>
    have hrows : r.rows = [row] := exactlyOne_eq_ok_iff.mp hrow
    rw [answer, hrow, hrows]
    simp [Report.ok, eq_comm]
  | error n =>
    -- any other number of rows has no answer
    have hrows : ∀ row, r.rows ≠ [row] := by
      intro row h
      cases (exactlyOne_eq_ok_iff.mpr h).symm.trans hrow
    rw [answer, hrow]
    simp [Report.fail, hrows]

/-- **A call that reads rows is sent** unless it cannot be prepared; it expects exactly one row if
it brings an error for any other number, and all rows if it brings none. -/
theorem exists_send_of_fetches (hcall : call.Fetches) (hready : ∀ e, ¬ s.Unbuildable call e) :
    ∃ stmt, (s.prepare call).result = .ok (.send stmt (readExpectation call.notSingle?)) := by
  -- filters that are not refused are compiled
  have hfilter : ∀ filters, (∀ e, (s.compiler.filter 0 filters).result ≠ .error e) →
      ∃ r, (s.compiler.filter 0 filters).result = .ok r := by
    intro filters h
    cases hresult : (s.compiler.filter 0 filters).result with
    | error e => exact absurd hresult (h e)
    | ok r => exact ⟨r, rfl⟩
  -- what can be refused is the parameters as given, or the filters
  cases call with
  | one sql values notSingle =>
    cases hitems : values.items? with
    | none => exact absurd ⟨hitems, rfl⟩ (hready _)
    | some vs =>
      refine ⟨⟨sql, vs⟩, ?_⟩
      show given sql values (.exactlyOne notSingle) = _
      rw [given, hitems]
      rfl
  | getAll table filters notSingle =>
    obtain ⟨r, hr⟩ := hfilter filters hready
    exact ⟨_, Report.result_map_eq_ok.mpr ⟨r, hr, rfl⟩⟩
  | get table fields filters notSingle =>
    obtain ⟨r, hr⟩ := hfilter filters hready
    exact ⟨_, Report.result_map_eq_ok.mpr ⟨r, hr, rfl⟩⟩
  | _ => exact hcall.elim

/-- **What comes of a call that is sent** is what the driver fails with, or what is made of its
rows. -/
theorem result_of_send {stmt : Statement} {x : Expectation ε}
    (h : (s.prepare call).result = .ok (.send stmt x)) (left : List Reply) :
    (s.run call left).report.result =
      match left.headD silentReply with
      | .refused f | .failed f => (s.failure f x).result
      | .result rows returnsRows count =>
        (s.answer ⟨if returnsRows then rows else [], count⟩ x).result := by
  cases hreply : left.headD silentReply with
  | _ => simp only [run, h, hreply, exchange]

/-- **One row, or the caller's error.** Whatever the driver replies to a call that reads rows:

* if the call cannot be prepared, it fails for that reason before the driver is asked;
* if the driver runs the statement and the call brings an error for a wrong number of rows, the
  answer is a row exactly if the statement returns rows and there is just this one; and the call
  fails exactly if that is not so, with the error it brings and no other;
* if the call brings no error, the answer is all rows in the order of the driver;
* if the driver fails, before the statement or in it, the call fails as the driver does. -/
theorem fetch_outcome (s : Session) {call : Call ε} (hcall : call.Fetches) (left : List Reply) :
    let o := s.run call left
    (∀ err, s.Unbuildable call err →
      o.events = [] ∧ o.replies = left ∧ o.report.result = .error (.library err)) ∧
    ((∀ err, ¬ s.Unbuildable call err) →
      (∀ rows returnsRows count, left.headD silentReply = .result rows returnsRows count →
        (∀ e, call.notSingle? = some e →
          (∀ a, o.report.result = .ok a ↔
            ∃ row, returnsRows = true ∧ rows = [row] ∧ a = .row row) ∧
          ∀ err, o.report.result = .error err ↔
            ¬ (returnsRows = true ∧ rows.length = 1) ∧ err = .notSingle e) ∧
        (call.notSingle? = none →
          o.report.result = .ok (.rows (if returnsRows then rows else [])))) ∧
      ∀ f, (left.headD silentReply).failure? = some f →
        o.report.result = .error (.driver f)) := by
  intro o
  -- a call that cannot be prepared is settled before the driver is asked
  refine ⟨fun err herr => (s.lawful_run call left).unbuildable_iff err |>.mp herr, fun hready => ?_⟩
  -- any other is sent, and all that counts then is the first reply
  obtain ⟨stmt, hsend⟩ := exists_send_of_fetches hcall hready
  have hresult : o.report.result = _ := result_of_send hsend left
  refine ⟨fun rows returnsRows count hreply => ⟨fun e he => ⟨fun a => ?_, fun err => ?_⟩, ?_⟩, ?_⟩
  · -- the driver ran the statement, and a single row is expected: when there is an answer
    rw [hresult, hreply, he]
    refine answer_exactlyOne_eq_ok.trans (exists_congr fun row => ?_)
    cases returnsRows <;> simp
  · -- and when there is none: no rows are returned, or not just one
    rw [hresult, hreply, he]
    refine answer_exactlyOne_eq_error.trans ?_
    cases returnsRows <;> simp [eq_comm]
  · -- all rows are expected, and a statement that returns none has an empty list of them
    intro hnone
    rw [hresult, hreply, hnone]
    rfl
  · -- the driver failed; only a probe would make an error of the library of it
    intro f hf
    have hversion : readExpectation call.notSingle? ≠ .version := by
      cases call.notSingle? <;> exact nofun
    have hdriver : (s.failure f (readExpectation call.notSingle?)).result = .error (.driver f) :=
      failure_of_ne_version hversion
    rw [hresult]
    cases hreply : left.headD silentReply with
    | result rows returnsRows count =>
      -- a reply with a result is no failure
      rw [hreply] at hf
      cases hf
    | _ =>
      rw [hreply] at hf
      obtain rfl := Option.some.inj hf
      exact hdriver

/-- A call for the one pet with the given filter, with an error for any other number. -/
def onePet (filters : Value) : Call Unit := .getAll "pets" filters (some ())

/-- A driver that gives back one row without any column. -/
def emptyRow : Reply := .result [.map []] true 1

/-- A row without columns is a row; a result that returns no rows has none, and neither is what the
driver fails with. -/
theorem fetch_outcome_of_emptyRow :
    let call := onePet (.map [(.text "id", .int 1)])
    call.Fetches ∧ (∀ err, ¬ standardSession.Unbuildable call err) ∧
    (standardSession.run call [emptyRow]).report.result = .ok (.row (.map [])) ∧
    (standardSession.run call [.result [.map []] false 1]).report.result =
      .error (.notSingle ()) ∧
    (standardSession.run call [.failed ⟨.database, "locked"⟩]).report.result =
      .error (.driver ⟨.database, "locked"⟩) := by
  intro call
  have hcall : call.Fetches := trivial
  -- the only thing that could be refused is the filter, and it compiles
  have hready : ∀ err, ¬ standardSession.Unbuildable call err := by
    intro err herr
    have hfilter : (standardSession.compiler.filter 0 (.map [(.text "id", .int 1)])).result =
        .error err := herr
    cases hfilter
  obtain ⟨-, hempty⟩ := fetch_outcome standardSession hcall [emptyRow]
  obtain ⟨-, hnone⟩ := fetch_outcome standardSession hcall [.result [.map []] false 1]
  obtain ⟨-, hfailed⟩ := fetch_outcome standardSession hcall [.failed ⟨.database, "locked"⟩]
  refine ⟨hcall, hready, ?_, ?_, ?_⟩
  · exact (((hempty hready).1 _ _ _ rfl).1 () rfl).1 _ |>.mpr ⟨_, rfl, rfl, rfl⟩
  · exact (((hnone hready).1 _ _ _ rfl).1 () rfl).2 _ |>.mpr ⟨by simp, rfl⟩
  · exact (hfailed hready).2 _ rfl

/-- **A filter that the store cannot express** is an error of its own, whatever rows the driver has.
-/
theorem not_notSingle_of_includes :
    ¬ ∀ (s : Session) (call : Call Unit) (e : Unit) (rows : List Value) (returnsRows : Bool)
      (count : Int), call.Fetches → call.notSingle? = some e →
      ¬ (returnsRows = true ∧ rows.length = 1) →
      (s.run call [.result rows returnsRows count]).report.result = .error (.notSingle e) := by
  intro h
  have hraised := h ⟨{ dialect := .sqlite }, [], none⟩
    (onePet (.list [.map [(.text "field", .text "tags"), (.text "operator", .text "includes"),
      (.text "value", .text "x")]])) () [] true 0 trivial rfl (by simp)
  cases hraised

end Session

end BoundSql
