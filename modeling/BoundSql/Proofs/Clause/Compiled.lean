import BoundSql.Proofs.Clause.Rendering

/-!
# Compiled clauses

However a selection reaches the compiler, as a checked one, as raw data or as a filter alone, the
clause and the values of the outcome are those of a list of nodes (`Compiled.Renders`).

* `Compiler.select_renders`, `Compiler.selectRaw_renders`, `Compiler.filter_renders` — which nodes
  these are;
* `Compiled.Renders.whereClause_eq_empty` — the clause is empty where no leaf is kept;
* `Dialect.isOperator_of_resolve` — the stores known by name match patterns with an operator that
  can be read.
-/

namespace BoundSql

open Node

/-- The clause and the values are those of the given nodes; the clause stands behind `bound`
parameters. -/
structure Compiled.Renders (r : Compiled) (c : Compiler) (bound : Nat) (keyword : Bool)
    (ns : List Node) : Prop where
  whereClause : r.whereClause = Compiler.withKeyword keyword
    (Sql.write c.dialect.style (Sql.pieces true (outline c.dialect c.aliases bound ns)))
  values : r.values = Node.values ns

namespace Compiler

variable {c : Compiler} {k : Compilation} {s : Selection} {r : Compiled}

theorem clause_eq_of_ok {bound : Nat} {ns : List Node} {clause : String × List Value}
    (h : (c.clause bound ns).result = .ok clause) :
    clause = (Sql.write c.dialect.style (Sql.pieces true (outline c.dialect c.aliases bound ns)),
      Node.values ns) := by
  have hrender := Report.result_mapError_eq_ok.mp h
  rw [render_eq] at hrender
  obtain ⟨-, -, hclause⟩ := Report.result_map_eq_ok.mp hrender
  exact hclause.symm

theorem assemble_renders {bound : Nat} (hbound : k.offset = bound)
    (h : (c.assemble k s).result = .ok r) :
    ∃ ns, s.effectiveNodes k.textFields = .ok ns ∧ r.Renders c bound k.keyword ns := by
  obtain ⟨ns, hns, hr⟩ := Report.result_bind_eq_ok.mp h
  obtain ⟨clause, hclause, rfl⟩ := Report.result_map_eq_ok.mp hr
  rw [hbound] at hclause
  refine ⟨ns, hns, ?_⟩
  rw [clause_eq_of_ok hclause]
  exact ⟨rfl, rfl⟩

/-- A good offset counts the parameters bound earlier. -/
theorem exists_of_checkOffset {offset : Int} {u : Unit} (h : checkOffset offset = .ok u) :
    ∃ bound : Nat, offset = bound := by
  unfold checkOffset at h
  split at h
  · cases h
  · exact Int.eq_ofNat_of_zero_le (by omega)

theorem select_renders (h : (c.select k s).result = .ok r) :
    ∃ (bound : Nat) (ns : List Node), k.offset = bound ∧
      s.effectiveNodes k.textFields = .ok ns ∧ r.Renders c bound k.keyword ns := by
  obtain ⟨u, hoffset, hr⟩ := Report.result_bind_eq_ok.mp h
  obtain ⟨bound, hbound⟩ := exists_of_checkOffset hoffset
  obtain ⟨ns, hns, hrenders⟩ := assemble_renders hbound hr
  exact ⟨bound, ns, hbound, hns, hrenders⟩

/-- The order of what is compiled is the one asked for. -/
theorem sortClause_of_select (h : (c.select k s).result = .ok r) :
    r.sortClause = c.sortClause s.sort := by
  obtain ⟨_, -, hassemble⟩ := Report.result_bind_eq_ok.mp h
  obtain ⟨_, -, hmap⟩ := Report.result_bind_eq_ok.mp hassemble
  obtain ⟨_, -, rfl⟩ := Report.result_map_eq_ok.mp hmap
  rfl

/-- What is compiled has no leaf that cannot be rendered. -/
theorem survey_of_select (h : (c.select k s).result = .ok r) {ns : List Node}
    (hns : s.effectiveNodes k.textFields = .ok ns) :
    ∃ u, (c.survey (leavesOf ns)).result = .ok u := by
  obtain ⟨bound, -, hbound, -, -⟩ := select_renders h
  obtain ⟨u, -, hassemble⟩ := Report.result_bind_eq_ok.mp h
  obtain ⟨ns', hns', hr⟩ := Report.result_bind_eq_ok.mp hassemble
  obtain rfl : ns' = ns := Except.ok.inj (hns'.symm.trans hns)
  obtain ⟨clause, hclause, -⟩ := Report.result_map_eq_ok.mp hr
  have hrender := Report.result_mapError_eq_ok.mp hclause
  rw [hbound, render_eq] at hrender
  obtain ⟨u, hu, -⟩ := Report.result_map_eq_ok.mp hrender
  exact ⟨u, hu⟩

/-- What has no leaf that cannot be rendered is compiled. -/
theorem select_of_survey {bound : Nat} (hbound : k.offset = bound) {ns : List Node}
    (hns : s.effectiveNodes k.textFields = .ok ns) {u : Unit}
    (hsurvey : (c.survey (leavesOf ns)).result = .ok u) :
    ∃ r, (c.select k s).result = .ok r := by
  -- nothing else is refused: a bound is no negative offset, and rendering asks the survey alone
  have hoffset : checkOffset k.offset = .ok () := by
    rw [hbound, checkOffset, if_neg (by omega)]
  have hclause : (c.clause k.offset ns).result =
      .ok (Sql.write c.dialect.style (Sql.pieces true (outline c.dialect c.aliases bound ns)),
        Node.values ns) := by
    refine Report.result_mapError_eq_ok.mpr ?_
    rw [hbound, render_eq]
    exact Report.result_map_eq_ok.mpr ⟨u, hsurvey, rfl⟩
  have hassemble : ∃ r, (c.assemble k s).result = .ok r :=
    ⟨_, Report.result_bind_eq_ok.mpr
      ⟨ns, hns, Report.result_map_eq_ok.mpr ⟨_, hclause, rfl⟩⟩⟩
  obtain ⟨r, hr⟩ := hassemble
  exact ⟨r, Report.result_bind_eq_ok.mpr ⟨(), hoffset, hr⟩⟩

/-- Raw data is compiled as the selection it is read as. -/
theorem select_of_selectRaw (c : Compiler) {v : Value} (h : (c.selectRaw k v).result = .ok r) :
    ∃ s, (Selection.read c.strict v).result = .ok s ∧ (c.select k s).result = .ok r := by
  obtain ⟨u, hoffset, hread⟩ := Report.result_bind_eq_ok.mp h
  obtain ⟨s, hs, hassemble⟩ := Report.result_bind_eq_ok.mp hread
  exact ⟨s, hs, Report.result_bind_eq_ok.mpr ⟨u, hoffset, hassemble⟩⟩

theorem selectRaw_renders {v : Value} (h : (c.selectRaw k v).result = .ok r) :
    ∃ (bound : Nat) (s : Selection) (ns : List Node), k.offset = bound ∧
      (Selection.read c.strict v).result = .ok s ∧ s.effectiveNodes k.textFields = .ok ns ∧
      r.Renders c bound k.keyword ns := by
  obtain ⟨s, hs, hselect⟩ := c.select_of_selectRaw h
  obtain ⟨bound, ns, hbound, hns, hrenders⟩ := select_renders hselect
  exact ⟨bound, s, ns, hbound, hs, hns, hrenders⟩

/-- Raw data without a filter has no nodes to be read. -/
theorem readFilters_of_no_filter (strict : Bool) {es : Entries}
    (h : Value.lookup "filters" es = none ∨ Value.lookup "filters" es = some .null) :
    Selection.readFilters strict es = .ok none := by
  unfold Selection.readFilters
  rcases h with h | h
  · rw [h]
  · rw [h]

/-- The filter of raw data is read node by node. -/
theorem readFilters_of_filter (strict : Bool) {es : Entries} {v : Value}
    (h : Value.lookup "filters" es = some v) (hv : v ≠ .null) :
    Selection.readFilters strict es = (Node.readItems strict Node.rootPath v).map some := by
  unfold Selection.readFilters
  rw [h]
  split
  · rename_i heq
    cases heq
  · rename_i heq
    exact absurd (Option.some.inj heq) hv
  · rename_i heq
    rw [Option.some.inj heq]

/-- Raw data that is read is a built selection, or has entries that pass as one. -/
theorem built_or_checked_of_read {strict : Bool} {v : Value}
    (h : (Selection.read strict v).result = .ok s) :
    Selection.ofValue? v = some s ∨ (Selection.ofValue? v = none ∧
      ∃ es filters, v.toEntries = .ok es ∧
        (Selection.readFilters strict es).result = .ok filters ∧
        Selection.checkWith (.ok filters) es = .ok s) := by
  unfold Selection.read at h
  cases hbuilt : Selection.ofValue? v with
  | some s' =>
    -- what is built already is taken as it is
    rw [hbuilt] at h
    cases h
    exact .inl rfl
  | none =>
    -- else the filters are read first, and the other entries are checked with them
    rw [hbuilt] at h
    obtain ⟨es, hes, hread⟩ := Report.result_bind_eq_ok.mp h
    obtain ⟨filters, hfilters, hcheck⟩ := Report.result_bind_eq_ok.mp hread
    refine .inr ⟨rfl, es, filters, hes, hfilters, ?_⟩
    cases hwith : Selection.checkWith (.ok filters) es with
    | ok s' =>
      rw [hwith] at hcheck
      cases hcheck
      rfl
    | issues found =>
      rw [hwith] at hcheck
      cases hcheck

/-- A filter alone is compiled as it is, there being no text to search for. -/
theorem filter_renders {offset : Int} {v : Value} (h : (c.filter offset v).result = .ok r) :
    ∃ (bound : Nat) (ns : List Node), offset = bound ∧
      (Node.ofFilters c.strict v).result = .ok ns ∧ r.Renders c bound true ns := by
  obtain ⟨ns, hns, hselect⟩ := Report.result_bind_eq_ok.mp h
  obtain ⟨bound, ns', hbound, hns', hrenders⟩ := select_renders hselect
  cases hns'
  exact ⟨bound, ns, hbound, hns, hrenders⟩

/-- **Every compilation** renders some nodes. -/
theorem renders_of_compiled (c : Compiler)
    (h : (∃ k selection, (c.select k selection).result = .ok r) ∨
      (∃ k raw, (c.selectRaw k raw).result = .ok r) ∨
      ∃ offset v, (c.filter offset v).result = .ok r) :
    ∃ bound keyword ns, r.Renders c bound keyword ns := by
  rcases h with ⟨k, selection, h⟩ | ⟨k, raw, h⟩ | ⟨offset, v, h⟩
  · obtain ⟨bound, ns, -, -, hrenders⟩ := select_renders h
    exact ⟨bound, k.keyword, ns, hrenders⟩
  · obtain ⟨bound, -, ns, -, -, -, hrenders⟩ := selectRaw_renders h
    exact ⟨bound, k.keyword, ns, hrenders⟩
  · obtain ⟨bound, ns, -, -, hrenders⟩ := filter_renders h
    exact ⟨bound, true, ns, hrenders⟩

end Compiler

namespace Compiled.Renders

variable {r : Compiled} {c : Compiler} {bound : Nat} {keyword : Bool} {ns : List Node}

theorem withKeyword_eq_empty (keyword : Bool) (clause : String) :
    Compiler.withKeyword keyword clause = "" ↔ clause = "" := by
  unfold Compiler.withKeyword
  split
  · rename_i hkeyword
    constructor
    · intro h
      exact absurd (String.append_eq_empty_iff.mp h).1 (by decide)
    · rintro rfl
      exact absurd hkeyword (by simp)
  · exact Iff.rfl

/-- **The clause is empty where no leaf is kept**, and only there. -/
theorem whereClause_eq_empty (h : r.Renders c bound keyword ns) :
    r.whereClause = "" ↔ kept ns = [] := by
  rw [h.whereClause, withKeyword_eq_empty, Sql.write_pieces_eq_empty, outline_eq_nil]

theorem values_eq_nil (h : r.Renders c bound keyword ns) : r.values = [] ↔ kept ns = [] := by
  rw [h.values, Node.values, List.map_eq_nil_iff]

end Compiled.Renders

theorem Dialect.isOperator_of_find? {name : String} {d : Dialect} (h : find? name = some d) :
    Sql.IsOperator d.patternOperator := by
  have hknown : d ∈ [postgres, sqlite] := List.mem_of_find?_eq_some h
  rcases List.mem_cons.mp hknown with rfl | hsqlite
  · exact Sql.isOperator_ilike
  · rw [List.mem_singleton.mp hsqlite]
    exact Sql.isOperator_like

/-- **The stores known by name** match patterns with an operator that can be read, in any
placeholder style. -/
theorem Dialect.isOperator_of_resolve {name style : Value} {d : Dialect}
    (h : Dialect.resolve name style = .ok d) : Sql.IsOperator d.patternOperator := by
  unfold Dialect.resolve at h
  split at h
  · cases h
  · split at h
    · cases h
    · rename_i store hfind
      obtain ⟨known, -, hknown⟩ := Option.bind_eq_some_iff.mp hfind
      have hstore := isOperator_of_find? hknown
      split at h
      · cases h
        exact hstore
      · -- another placeholder style leaves the operator as it is
        cases hstyle : PlaceholderStyle.ofValue style with
        | error e =>
          rw [hstyle] at h
          cases h
        | ok s =>
          rw [hstyle] at h
          cases h
          exact hstore

end BoundSql
