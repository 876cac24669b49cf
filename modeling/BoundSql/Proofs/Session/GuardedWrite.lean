import BoundSql.Proofs.Clause.Compiled
import BoundSql.Proofs.Session.Run

/-!
# Guarded writes

An update or a delete that may not affect all rows is executed with a clause that tests something,
or not at all. Whatever the filters are, nothing that is dropped on the way from them to the clause
leaves a clause without tests.

* `Statement.Guarded` — what is known of a statement that is executed;
* `Session.guarded_write` — updates and deletes are guarded or refused, and a clause is empty
  exactly if it has no values.
-/

namespace BoundSql

open Node

/-- **A guarded statement.** Behind `front` stands the clause of the nodes, behind `bound`
parameters. -/
structure Statement.Guarded (stmt : Statement) (c : Compiler) (front : String) (bound : Nat)
    (ns : List Node) : Prop where
  sql : stmt.sql = front ++ " WHERE " ++
    Sql.write c.dialect.style (Sql.pieces true (outline c.dialect c.aliases bound ns))
  /-- The clause tests something. -/
  tests_ne : Sql.tests (outline c.dialect c.aliases bound ns) ≠ []
  /-- Every test is that of a leaf, whose value is the parameter the test is numbered with. -/
  values : ∀ test ∈ Sql.tests (outline c.dialect c.aliases bound ns), ∃ leaf ∈ kept ns,
    test = Leaf.test c.dialect c.aliases test.number leaf ∧
      stmt.parameters[test.number - 1]? = some leaf.1.value

namespace Compiled.Renders

variable {r : Compiled} {c : Compiler} {bound : Nat} {ns : List Node}

theorem whereClause_of_ne_empty (h : r.Renders c bound true ns) (hne : r.whereClause ≠ "") :
    r.whereClause = "WHERE " ++
      Sql.write c.dialect.style (Sql.pieces true (outline c.dialect c.aliases bound ns)) := by
  rw [h.whereClause] at hne ⊢
  have hclause := mt (withKeyword_eq_empty true _).mpr hne
  have hkeyword : (true && !(Sql.write c.dialect.style
      (Sql.pieces true (outline c.dialect c.aliases bound ns))).isEmpty) = true := by
    simpa using hclause
  rw [Compiler.withKeyword, if_pos hkeyword]

/-- **A statement with a clause that is not empty** is guarded. -/
theorem guarded (h : r.Renders c bound true ns) (hne : r.whereClause ≠ "") {stmt : Statement}
    {front : String} (hsql : stmt.sql = front ++ " " ++ r.whereClause) {earlier : List Value}
    (hlength : earlier.length = bound) (hparameters : stmt.parameters = earlier ++ r.values) :
    stmt.Guarded c front bound ns where
  sql := by
    let clause :=
      Sql.write c.dialect.style (Sql.pieces true (outline c.dialect c.aliases bound ns))
    calc
      stmt.sql = front ++ " " ++ ("WHERE " ++ clause) := by
        rw [hsql, h.whereClause_of_ne_empty hne]
      _ = front ++ (" " ++ "WHERE ") ++ clause := by simp only [String.append_assoc]
  tests_ne := by
    rw [tests_outline]
    intro hnil
    have hkept := List.mapIdx_eq_nil_iff.mp hnil
    exact hne (h.whereClause_eq_empty.mpr hkept)
  values := by
    rw [tests_outline]
    intro test htest
    obtain ⟨i, hi, rfl⟩ := List.mem_mapIdx.mp htest
    -- the values of the clause come behind the earlier ones, as its numbers do
    refine ⟨(kept ns)[i], List.getElem_mem hi, rfl, ?_⟩
    show stmt.parameters[bound + i]? = some (kept ns)[i].1.value
    rw [hparameters, ← hlength, List.getElem?_append_right (Nat.le_add_right _ _),
      Nat.add_sub_cancel_left, h.values, Node.values, List.getElem?_map,
      List.getElem?_eq_getElem hi]
    rfl

end Compiled.Renders

namespace Session

variable {ε : Type} {s : Session} {table : String} {filters : Value}

/-! ### The filter of a write -/

theorem writeFilter_eq_ok {statement : String} {offset : Nat} {r : Compiled}
    (h : (s.writeFilter statement table filters false offset).result = .ok r) :
    (s.compiler.filter offset filters).result = .ok r ∧ r.whereClause ≠ "" := by
  obtain ⟨r', hfilter, hr⟩ := Report.result_bind_eq_ok.mp h
  split at hr
  · cases hr
  · rename_i hclause
    cases hr
    exact ⟨hfilter, by simpa using hclause⟩

/-- A filter that keeps nothing is refused. -/
theorem writeFilter_of_kept_nil {statement : String} {offset : Nat} {r : Compiled}
    {ns : List Node} (hfilter : (s.compiler.filter offset filters).result = .ok r)
    (hns : (Node.ofFilters s.compiler.strict filters).result = .ok ns) (hkept : kept ns = []) :
    (s.writeFilter statement table filters false offset).result =
      .error (.build (.unfilteredWrite statement table)) := by
  obtain ⟨bound, ns', -, hns', hrenders⟩ := Compiler.filter_renders hfilter
  obtain rfl : ns' = ns := Except.ok.inj (hns'.symm.trans hns)
  have hclause : r.whereClause = "" := hrenders.whereClause_eq_empty.mpr hkept
  rw [writeFilter, Report.bind_of_ok hfilter, hclause]
  rfl

/-! ### Statements with a clause -/

theorem sentence_delete (table : String) {clause : String} (hclause : clause ≠ "") :
    sentence ["DELETE FROM " ++ Ident.quote table, clause] =
      "DELETE FROM " ++ Ident.quote table ++ " " ++ clause := by
  have hparts : ∀ p ∈ ["DELETE FROM " ++ Ident.quote table, clause], p ≠ "" := by
    simp [hclause]
  rw [sentence_of_ne_empty hparts, String.intercalate_cons_cons, String.intercalate_singleton]

theorem sentence_update (table assigned : String) {clause : String} (hclause : clause ≠ "") :
    sentence ["UPDATE " ++ Ident.quote table, "SET " ++ assigned, clause] =
      "UPDATE " ++ Ident.quote table ++ " SET " ++ assigned ++ " " ++ clause := by
  have hparts : ∀ p ∈ ["UPDATE " ++ Ident.quote table, "SET " ++ assigned, clause], p ≠ "" := by
    simp [hclause]
  calc
    sentence ["UPDATE " ++ Ident.quote table, "SET " ++ assigned, clause] =
        "UPDATE " ++ Ident.quote table ++ " " ++ ("SET " ++ assigned ++ " " ++ clause) := by
      rw [sentence_of_ne_empty hparts, String.intercalate_cons_cons,
        String.intercalate_cons_cons, String.intercalate_singleton]
    _ = "UPDATE " ++ Ident.quote table ++ (" " ++ "SET ") ++ assigned ++ " " ++ clause := by
      simp only [String.append_assoc]

/-! ### Writes that are executed and writes that are refused -/

/-- A delete that is executed is guarded. -/
theorem guarded_of_delete {stmt : Statement} {e : Expectation ε}
    (h : (s.prepare (.delete table filters false)).result = .ok (.send stmt e)) :
    ∃ ns, (Node.ofFilters s.compiler.strict filters).result = .ok ns ∧
      stmt.Guarded s.compiler ("DELETE FROM " ++ Ident.quote table) 0 ns := by
  obtain ⟨r, hr, hstmt⟩ := Report.result_map_eq_ok.mp h
  obtain ⟨hfilter, hne⟩ := writeFilter_eq_ok hr
  obtain ⟨bound, ns, hbound, hns, hrenders⟩ := Compiler.filter_renders hfilter
  obtain rfl : 0 = bound := Int.ofNat.inj hbound
  cases hstmt
  have hlength : ([] : List Value).length = 0 := rfl
  exact ⟨ns, hns, hrenders.guarded hne (sentence_delete table hne) hlength rfl⟩

/-- An update that is executed is guarded. -/
theorem guarded_of_update {data : Value} {stmt : Statement} {e : Expectation ε}
    (h : (s.prepare (.update table data filters false)).result = .ok (.send stmt e)) :
    ∃ changes ns, storedRow s.arrays data = .ok changes ∧
      (Node.ofFilters s.compiler.strict filters).result = .ok ns ∧
      stmt.Guarded s.compiler
        ("UPDATE " ++ Ident.quote table ++ " SET " ++ assignments s.dialect (changes.map (·.1)))
        changes.length ns := by
  obtain ⟨changes, hchanges, hready⟩ := Report.result_bind_eq_ok.mp h
  -- with nothing to set no statement is made
  split at hready
  · cases hready
  · obtain ⟨r, hr, hstmt⟩ := Report.result_map_eq_ok.mp hready
    obtain ⟨hfilter, hne⟩ := writeFilter_eq_ok hr
    obtain ⟨bound, ns, hbound, hns, hrenders⟩ := Compiler.filter_renders hfilter
    -- the clause is numbered behind the values that are set
    obtain rfl : changes.length = bound := Int.ofNat.inj hbound
    cases hstmt
    have hlength : (changes.map (·.2)).length = changes.length := List.length_map _
    exact ⟨changes, ns, hchanges, hns,
      hrenders.guarded hne (sentence_update table _ hne) hlength rfl⟩

/-- What is known of a write that is refused: the driver is left alone. -/
structure Refused (o : Outcome ε) (statement table : String) (replies : List Reply) : Prop where
  events : o.events = []
  result : o.report.result = .error (.library (.build (.unfilteredWrite statement table)))
  replies : o.replies = replies

theorem refused_of_prepare {call : Call ε} {statement : String} {replies : List Reply}
    (h : (s.prepare call).result = .error (.build (.unfilteredWrite statement table))) :
    Refused (s.run call replies) statement table replies := by
  rw [run_of_error h]
  exact ⟨rfl, rfl, rfl⟩

theorem refused_delete {r : Compiled} {ns : List Node} {replies : List Reply}
    (hfilter : (s.compiler.filter 0 filters).result = .ok r)
    (hns : (Node.ofFilters s.compiler.strict filters).result = .ok ns) (hkept : kept ns = []) :
    Refused (s.run (.delete table filters false : Call ε) replies) "DELETE" table replies := by
  refine refused_of_prepare ?_
  rw [prepare, Report.map, writeFilter_of_kept_nil hfilter hns hkept]
  rfl

theorem refused_update {data : Value} {changes : List (String × Value)} {r : Compiled}
    {ns : List Node} {replies : List Reply} (hchanges : storedRow s.arrays data = .ok changes)
    (hne : changes ≠ []) (hfilter : (s.compiler.filter changes.length filters).result = .ok r)
    (hns : (Node.ofFilters s.compiler.strict filters).result = .ok ns) (hkept : kept ns = []) :
    Refused (s.run (.update table data filters false : Call ε) replies) "UPDATE" table
      replies := by
  refine refused_of_prepare ?_
  have hisEmpty : ¬ changes.isEmpty = true := by simpa using hne
  rw [prepare, prepareUpdate, hchanges, Report.ofExcept_ok_bind, if_neg hisEmpty, Report.map,
    writeFilter_of_kept_nil hfilter hns hkept]
  rfl

/-- **No write without a clause.** For any table, data, filters and replies of the driver, where
not all rows may be affected:

* a statement that a delete or an update executes is guarded by the nodes read from the filters;
* filters that are compiled but keep no leaf are refused without a word to the driver, for an update
  as far as there is something to set;
* the clause of a compilation is empty exactly if there are no values, whichever way the selection
  reaches the compiler.
-/
theorem guarded_write (s : Session) (table : String) (data filters : Value)
    (replies : List Reply) :
    (∀ stmt, .executed stmt ∈ (s.run (.delete table filters false : Call ε) replies).events →
      ∃ ns, (Node.ofFilters s.compiler.strict filters).result = .ok ns ∧
        stmt.Guarded s.compiler ("DELETE FROM " ++ Ident.quote table) 0 ns) ∧
    (∀ stmt, .executed stmt ∈ (s.run (.update table data filters false : Call ε) replies).events →
      ∃ changes ns, storedRow s.arrays data = .ok changes ∧
        (Node.ofFilters s.compiler.strict filters).result = .ok ns ∧
        stmt.Guarded s.compiler
          ("UPDATE " ++ Ident.quote table ++ " SET " ++ assignments s.dialect (changes.map (·.1)))
          changes.length ns) ∧
    (∀ ns r, (Node.ofFilters s.compiler.strict filters).result = .ok ns → kept ns = [] →
      (s.compiler.filter 0 filters).result = .ok r →
        Refused (s.run (.delete table filters false : Call ε) replies) "DELETE" table replies) ∧
    (∀ changes ns r, storedRow s.arrays data = .ok changes → changes ≠ [] →
      (Node.ofFilters s.compiler.strict filters).result = .ok ns → kept ns = [] →
      (s.compiler.filter changes.length filters).result = .ok r →
        Refused (s.run (.update table data filters false : Call ε) replies) "UPDATE" table
          replies) ∧
    ∀ (c : Compiler) (r : Compiled),
      (∃ k selection, (c.select k selection).result = .ok r) ∨
      (∃ k raw, (c.selectRaw k raw).result = .ok r) ∨
      (∃ offset v, (c.filter offset v).result = .ok r) →
        (r.whereClause = "" ↔ r.values = []) := by
  refine ⟨?_, ?_, ?_, ?_, ?_⟩
  · intro stmt hexecuted
    obtain ⟨e, he⟩ := send_of_executed hexecuted
    exact guarded_of_delete he
  · intro stmt hexecuted
    obtain ⟨e, he⟩ := send_of_executed hexecuted
    exact guarded_of_update he
  · intro ns r hns hkept hfilter
    exact refused_delete hfilter hns hkept
  · intro changes ns r hchanges hne hns hkept hfilter
    exact refused_update hchanges hne hfilter hns hkept
  · -- a clause is that of the nodes that are kept, and so are the values
    intro c r hr
    obtain ⟨bound, keyword, ns, hrenders⟩ := c.renders_of_compiled hr
    rw [hrenders.whereClause_eq_empty, hrenders.values_eq_nil]

/-- A session for a store of the second kind, at no particular place. -/
def localSession : Session := ⟨{ dialect := .sqlite }, [], none⟩

/-- A delete by one field is executed with its clause, and a delete by an empty list of nodes is
refused. -/
theorem guarded_write_of_owner :
    (localSession.run (.delete "pets" (.map [(.text "owner", .int 1)]) false : Call Unit)
      []).events =
        [.entered, .executed ⟨"DELETE FROM \"pets\" WHERE \"owner\" = ?", [.int 1]⟩, .committed] ∧
    (∃ ns, Statement.Guarded ⟨"DELETE FROM \"pets\" WHERE \"owner\" = ?", [.int 1]⟩
      localSession.compiler ("DELETE FROM " ++ Ident.quote "pets") 0 ns) ∧
    Refused (localSession.run (.delete "pets" (.list []) false : Call Unit) []) "DELETE" "pets"
      [] := by
  have hevents : (localSession.run (.delete "pets" (.map [(.text "owner", .int 1)]) false :
      Call Unit) []).events =
        [.entered, .executed ⟨"DELETE FROM \"pets\" WHERE \"owner\" = ?", [.int 1]⟩,
          .committed] := by
    rfl
  obtain ⟨hdelete, -⟩ := guarded_write (ε := Unit) localSession "pets" .null
    (.map [(.text "owner", .int 1)]) []
  obtain ⟨-, -, hrefused, -⟩ := guarded_write (ε := Unit) localSession "pets" .null (.list []) []
  -- the statement is the second of the three events
  have hmem := hdelete _ (hevents ▸ List.mem_cons_of_mem _ List.mem_cons_self)
  obtain ⟨ns, -, hguarded⟩ := hmem
  have hfilter : (localSession.compiler.filter 0 (.list [])).result =
      .ok ⟨.int standardLimit, .int 0, "", "", []⟩ := by
    rfl
  exact ⟨hevents, ⟨ns, hguarded⟩, hrefused [] _ rfl rfl hfilter⟩

end Session

end BoundSql
