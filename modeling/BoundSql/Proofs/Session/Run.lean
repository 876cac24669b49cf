import BoundSql.Proofs.Report
import BoundSql.Session

/-!
# What a call does at the driver

A call reaches the driver with one statement at most, and not at all if it cannot be prepared.

* `Session.send_of_executed` — a statement that is executed is the one the call was prepared as;
* `Session.run_of_error` — a call that cannot be prepared leaves the driver alone;
* `Session.exists_plan_of_bulkInsert`, `Session.exists_changes_of_update` — what rows and changes
  are sent as.
-/

namespace BoundSql.Session

variable {ε : Type} {s : Session} {call : Call ε} {replies : List Reply}

theorem eq_of_executed_exchange {sent stmt : Statement} {reply : Reply}
    (h : .executed stmt ∈ (exchange sent reply).events) : stmt = sent := by
  cases reply with
  | refused f => simp [exchange] at h
  | failed f => simpa [exchange] using h
  | result rows returnsRows count => simpa [exchange] using h

/-- **What is executed is what was prepared.** -/
theorem send_of_executed {stmt : Statement} (h : .executed stmt ∈ (s.run call replies).events) :
    ∃ e, (s.prepare call).result = .ok (.send stmt e) := by
  cases hready : (s.prepare call).result with
  | error e =>
    simp only [run, hready] at h
    cases h
  | ok p =>
    cases p with
    | done a =>
      simp only [run, hready] at h
      cases h
    | dispose => simp [run, hready] at h
    | send sent e =>
      -- the events are those of the one transaction, whatever is made of its result
      simp only [run, hready] at h
      rw [eq_of_executed_exchange h]
      exact ⟨e, rfl⟩

/-- **A call that cannot be prepared** leaves the driver alone. -/
theorem run_of_error {e : Error} (h : (s.prepare call).result = .error e) :
    s.run call replies =
      ⟨[], ⟨(s.prepare call).notices, .error (.library e)⟩, replies⟩ := by
  simp only [run, h]

/-! ### Statements that are sent -/

variable {table : String}

/-- The filter of a write is compiled like any other. -/
theorem filter_of_writeFilter {statement : String} {filters : Value} {allowAll : Bool}
    {offset : Nat} {r : Compiled}
    (h : (s.writeFilter statement table filters allowAll offset).result = .ok r) :
    (s.compiler.filter offset filters).result = .ok r := by
  obtain ⟨r', hfilter, hr⟩ := Report.result_bind_eq_ok.mp h
  split at hr
  · cases hr
  · cases hr
    exact hfilter

/-- A bulk insert that is sent has a plan. -/
theorem exists_plan_of_bulkInsert {rows : Value} {returning : Bool} {stmt : Statement}
    {e : Expectation ε}
    (h : (s.prepare (.bulkInsert table rows returning)).result = .ok (.send stmt e)) :
    ∃ p, InsertPlan.bulk s.dialect 0 s.arrays true rows = .ok p ∧
      stmt = insertInto table p p.placeholders returning := by
  have hbulk : s.prepareBulkInsert table rows returning = .ok (.send stmt e) := h
  unfold prepareBulkInsert at hbulk
  split at hbulk
  · cases hbulk
  · obtain ⟨p, hp, hstmt⟩ := Report.except_map_eq_ok.mp hbulk
    cases hstmt
    exact ⟨p, hp, rfl⟩

/-- An update that is sent has something to set. -/
theorem exists_changes_of_update {row v : Value} {allowAll : Bool} {stmt : Statement}
    {e : Expectation ε}
    (h : (s.prepare (.update table row v allowAll)).result = .ok (.send stmt e)) :
    ∃ changes r, storedRow s.arrays row = .ok changes ∧
      (s.writeFilter "UPDATE" table v allowAll changes.length).result = .ok r ∧
      stmt = ⟨sentence ["UPDATE " ++ Ident.quote table,
          "SET " ++ assignments s.dialect (changes.map (·.1)), r.whereClause],
        changes.map (·.2) ++ r.values⟩ := by
  obtain ⟨changes, hchanges, hready⟩ := Report.result_bind_eq_ok.mp h
  -- with nothing to set the update would be answered and not sent
  split at hready
  · cases hready
  · obtain ⟨r, hr, hstmt⟩ := Report.result_map_eq_ok.mp hready
    cases hstmt
    exact ⟨changes, r, hchanges, hr, rfl⟩

/-! ### Sentences -/

/-- Parts that are not empty are all written. -/
theorem sentence_of_ne_empty {parts : List String} (h : ∀ p ∈ parts, p ≠ "") :
    sentence parts = " ".intercalate parts := by
  have hfilter : parts.filter (fun p => !p.isEmpty) = parts := by
    refine List.filter_eq_self.mpr fun p hp => ?_
    simpa using h p hp
  rw [sentence, hfilter]

end BoundSql.Session
