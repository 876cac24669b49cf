import BoundSql.Proofs.Clause.ReadBack
import BoundSql.Proofs.Sql.Truth

/-!
# Free text behind filters

A search for a free text is one more sibling behind the filters, joined by `AND`. As `AND` binds
tighter than `OR`, it narrows what the filters say only where none of their outermost siblings is
joined by `OR`; otherwise it narrows the last of their alternatives.

* `Selection.values_effectiveNodes` — the values of a selection with its search;
* `Compiler.select_search_holds` — when a clause with a search is true;
* `Compiler.select_search_widens` — a row that the search should have left out.
-/

namespace BoundSql

open Node

/-! ### The search as a clause -/

namespace Selection

/-- The leaf that searches a field for a text. -/
def searchLeaf (text : String) (j : Option Joiner) (field : String) : Node :=
  .leaf ⟨field, Operator.contains.tag, .text text, j⟩

theorem searchLeaves_cons {text : String} {first : Bool} {field : String} {fields : List String}
    {ns : List Node} (h : searchLeaves text first (field :: fields) = .ok ns) :
    ∃ rest, searchLeaves text false fields = .ok rest ∧
      ns = searchLeaf text (if first then none else some .or) field :: rest := by
  have hname : Check.name (.text field) =
      if field.isEmpty then .fault .tooShort [] else .ok field := rfl
  rw [searchLeaves, hname] at h
  cases hfield : field.isEmpty with
  | true =>
    -- a field without a name refuses the whole search
    rw [hfield] at h
    cases h
  | false =>
    rw [hfield] at h
    cases hrest : searchLeaves text false fields with
    | error e =>
      rw [hrest] at h
      cases h
    | ok rest =>
      -- the joiner of a leaf depends on its place alone, so the rest is searched for as it is
      rw [hrest] at h
      cases h
      exact ⟨rest, rfl, rfl⟩

theorem searchLeaves_map {text : String} {fields : List String} {ns : List Node}
    (h : searchLeaves text false fields = .ok ns) :
    ns = fields.map (searchLeaf text (some .or)) := by
  induction fields generalizing ns with
  | nil =>
    cases h
    rfl
  | cons field fields ih =>
    obtain ⟨rest, hrest, rfl⟩ := searchLeaves_cons h
    rw [ih hrest]
    rfl

/-- **The nodes of a selection with a text to search for.** -/
theorem effectiveNodes_of_search {s : Selection} {text field : String} {fields : List String}
    {ns : List Node} (htext : s.searchText = some text)
    (h : s.effectiveNodes (field :: fields) = .ok ns) :
    ns = s.nodes ++ [.group
      (searchLeaf text none field :: fields.map (searchLeaf text (some .or)))
      (if s.nodes.isEmpty then none else some .and)] := by
  have hsearch : s.effectiveNodes (field :: fields) =
      (searchLeaves text true (field :: fields)).map fun leaves =>
        s.nodes ++ [.group leaves (if s.nodes.isEmpty then none else some .and)] := by
    unfold effectiveNodes
    rw [htext]
  rw [hsearch] at h
  cases hleaves : searchLeaves text true (field :: fields) with
  | error e =>
    rw [hleaves] at h
    cases h
  | ok leaves =>
    rw [hleaves] at h
    cases h
    -- only the first leaf of the group goes without a joiner
    obtain ⟨rest, hrest, rfl⟩ := searchLeaves_cons hleaves
    rw [searchLeaves_map hrest]
    rfl

/-- The values that a search for a free text compares the fields with. -/
def searchValues (s : Selection) (fields : List String) : List Value :=
  match s.searchText with
  | some text => List.replicate fields.length (.text text)
  | none => []

theorem values_searchLeaf_cons (text : String) (j : Option Joiner) (field : String)
    (ns : List Node) : values (searchLeaf text j field :: ns) = .text text :: values ns := by
  have hform : (Leaf.form? ⟨field, Operator.contains.tag, .text text, j⟩) = some .pattern := rfl
  rw [values, searchLeaf, kept_leaf_of_kept hform]
  rfl

theorem values_searchLeaves (text : String) (fields : List String) :
    values (fields.map (searchLeaf text (some .or))) =
      List.replicate fields.length (.text text) := by
  induction fields with
  | nil => rfl
  | cons field fields ih =>
    rw [List.map_cons, values_searchLeaf_cons, ih]
    rfl

/-- **The values of a selection**: those of its own nodes, and behind them the text to search for,
once for each field. -/
theorem values_effectiveNodes {s : Selection} {fields : List String} {ns : List Node}
    (h : s.effectiveNodes fields = .ok ns) :
    values ns = values s.nodes ++ s.searchValues fields := by
  cases htext : s.searchText with
  | none =>
    -- without a text, or without fields, the nodes are those of the filter
    simp only [effectiveNodes, htext] at h
    cases h
    rw [searchValues, htext, List.append_nil]
  | some text =>
    rw [searchValues, htext]
    cases fields with
    | nil =>
      simp only [effectiveNodes, htext] at h
      cases h
      exact (List.append_nil _).symm
    | cons field fields =>
      -- the group comes last, so its values are behind all others
      rw [effectiveNodes_of_search htext h, values_append, values_group_nil, values_searchLeaf_cons,
        values_searchLeaves]
      rfl

end Selection

/-- The tests of a search in fields, behind `bound` parameters. -/
def Compiler.searchTests (c : Compiler) (bound : Nat) (fields : List String) : List Sql.Test :=
  fields.mapIdx fun i field =>
    ⟨(Column.resolve field c.aliases).shown, .ofForm c.dialect .pattern, bound + i + 1⟩

namespace Compiler

open Selection

theorem searchTests_cons (c : Compiler) (bound : Nat) (field : String) (fields : List String) :
    c.searchTests bound (field :: fields) =
      ⟨(Column.resolve field c.aliases).shown, .ofForm c.dialect .pattern, bound + 1⟩ ::
        c.searchTests (bound + 1) fields := by
  rw [searchTests, List.mapIdx_cons, searchTests]
  simp only [Nat.add_assoc, Nat.add_comm 1]

theorem outline_searchLeaf_or (c : Compiler) (bound : Nat) (text : String)
    (fields : List String) :
    outline c.dialect c.aliases bound (fields.map (searchLeaf text (some .or))) =
      (c.searchTests bound fields).map (Sql.Term.test (some .or)) := by
  induction fields generalizing bound with
  | nil => rfl
  | cons field fields ih =>
    have hform : (Leaf.form? ⟨field, Operator.contains.tag, .text text, some .or⟩) =
        some .pattern := rfl
    rw [List.map_cons, searchTests_cons, List.map_cons, ← ih]
    exact outline_leaf_of_kept _ _ _ hform _

/-- **The outline of a search** is made of its tests, joined by `OR`. -/
theorem outline_search (c : Compiler) (bound : Nat) (text field : String)
    (fields : List String) :
    outline c.dialect c.aliases bound
        (searchLeaf text none field :: fields.map (searchLeaf text (some .or))) =
      Sql.anyOf (c.searchTests bound (field :: fields)) := by
  have hform : (Leaf.form? ⟨field, Operator.contains.tag, .text text, none⟩) =
      some .pattern := rfl
  rw [searchTests_cons, Sql.anyOf, ← outline_searchLeaf_or c (bound + 1) text]
  exact outline_leaf_of_kept _ _ _ hform _

/-- **The clause with a search** is the clause without it and one more group. -/
theorem settle_outline_search (c : Compiler) (bound : Nat) (text field : String)
    (fields : List String) (ns : List Node) :
    Sql.settle true (outline c.dialect c.aliases bound (ns ++ [.group
        (searchLeaf text none field :: fields.map (searchLeaf text (some .or)))
        (if ns.isEmpty then none else some .and)])) =
      let alone := Sql.settle true (outline c.dialect c.aliases bound ns)
      alone ++ [.group (if alone.isEmpty then none else some .and)
        (Sql.anyOf (c.searchTests (bound + (kept ns).length) (field :: fields)))] := by
  have hgroup : ∀ (bound : Nat) (j : Option Joiner), outline c.dialect c.aliases bound [.group
        (searchLeaf text none field :: fields.map (searchLeaf text (some .or))) j] =
      [.group j (Sql.anyOf (c.searchTests bound (field :: fields)))] := by
    intro bound j
    rw [outline_group_cons, outline_search, outline_nil, List.append_nil, searchTests_cons]
    rfl
  have hsettle : ∀ (first : Bool) (j : Option Joiner) (us : List Sql.Test),
      Sql.settle first [.group j (Sql.anyOf us)] =
        [.group (if first then none else j) (Sql.anyOf us)] := by
    intro first j us
    rw [Sql.settle_cons, Sql.Term.settle, Sql.settle_anyOf]
    rfl
  -- the joiner in front of the group shows only if something is left in front of it
  rw [outline_append, hgroup, Sql.settle_append, hsettle, Bool.true_and]
  cases hns : outline c.dialect c.aliases bound ns with
  | nil => rfl
  | cons t ts =>
    -- where something is kept there were nodes, so the group has its joiner
    cases ns with
    | nil => cases hns
    | cons n ns => rfl

/-- Joined nodes stay joined with a search behind them. -/
theorem joined_search (text field : String) (fields : List String) {ns : List Node}
    (h : WellJoined true ns) :
    WellJoined true (ns ++ [.group
      (searchLeaf text none field :: fields.map (searchLeaf text (some .or)))
      (if ns.isEmpty then none else some .and)]) := by
  have hleaves : WellJoined false (fields.map (searchLeaf text (some .or))) := by
    induction fields with
    | nil => trivial
    | cons field fields ih => exact ⟨fun _ => Option.some_ne_none _, trivial, ih⟩
  refine (joined_append true ns _).mpr ⟨h, ?_, ⟨?_, trivial, hleaves⟩, trivial⟩
  · -- the group itself is joined where there are nodes in front of it
    intro hns hj
    rw [Bool.true_and] at hns
    rw [Node.joiner, hns] at hj
    cases hj
  · intro hfirst
    cases hfirst

/-- The tests of a search are numbered behind those of the filters. -/
theorem not_mem_searchTests (c : Compiler) (bound : Nat) (fields : List String) (ns : List Node) :
    ∀ t ∈ Sql.tests (Sql.settle true (outline c.dialect c.aliases bound ns)),
      t ∉ c.searchTests (bound + (kept ns).length) fields := by
  rw [Sql.tests_settle, tests_outline]
  intro t ht hsearch
  obtain ⟨i, hi, rfl⟩ := List.mem_mapIdx.mp ht
  obtain ⟨i', hi', heq⟩ := List.mem_mapIdx.mp hsearch
  -- two equal tests would have the same number
  have hnumber : bound + (kept ns).length + i' + 1 = bound + i + 1 :=
    congrArg Sql.Test.number heq
  omega

/-- What is compiled with nodes behind it is compiled alone. -/
theorem select_alone {c : Compiler} {k : Compilation} {s : Selection} {bound : Nat}
    (hbound : k.offset = bound) {ns : List Node} {u : Unit}
    (hsurvey : (c.survey (leavesOf (s.nodes ++ ns))).result = .ok u) :
    ∃ r, (c.select k { s with freeText := none }).result = .ok r ∧
      r.Renders c bound k.keyword s.nodes := by
  rw [leavesOf_append, survey_append] at hsurvey
  obtain ⟨u₀, hsurvey₀, -⟩ := Report.result_bind_eq_ok.mp hsurvey
  have hnodes : { s with freeText := none }.effectiveNodes k.textFields = .ok s.nodes := rfl
  obtain ⟨r, hr⟩ := select_of_survey hbound hnodes hsurvey₀
  obtain ⟨bound', ns', hbound', hns', hrenders⟩ := select_renders hr
  obtain rfl : ns' = s.nodes := Except.ok.inj (hns'.symm.trans hnodes)
  obtain rfl : bound' = bound := Int.ofNat.inj (hbound'.symm.trans hbound)
  exact ⟨r, hr, hrenders⟩

/-- **What a search does to a clause.** For a text that is not blank, searched in some fields, and
any nodes each of which is joined to the sibling before it:

* the filters alone are compiled too;
* the clause is that of the filters with one more group, in which the tests of the search are
  joined by `OR`; with an operator for patterns that can be read, nothing else can be read;
* it is true if an alternative of the filters other than the last is, or if their last alternative
  is and the text is found in some field;
* so it is true where the filters alone are true and the text is found, for all values of the
  tests, exactly if no outermost sibling that is kept is joined by `OR`.
-/
theorem select_search_holds {c : Compiler} {k : Compilation} {s : Selection} {r : Compiled}
    {text : String} (htext : s.searchText = some text) (hfields : k.textFields ≠ [])
    (hjoined : WellJoined true s.nodes) (h : (c.select k s).result = .ok r) :
    let bound := k.offset.toNat
    let alone := Sql.settle true (outline c.dialect c.aliases bound s.nodes)
    let search := c.searchTests (bound + (kept s.nodes).length) k.textFields
    let whole := alone ++ [.group (if alone.isEmpty then none else some .and) (Sql.anyOf search)]
    (∃ r₀, (c.select k { s with freeText := none }).result = .ok r₀ ∧
      r₀.whereClause = withKeyword k.keyword (Sql.write c.dialect.style (Sql.pieces true alone)) ∧
      r.whereClause = withKeyword k.keyword (Sql.write c.dialect.style (Sql.pieces true whole)) ∧
      (Sql.IsOperator c.dialect.patternOperator →
        (∀ ts, Sql.Says (Sql.lexemes bound r₀.whereClause) ts ↔ ts = alone) ∧
        ∀ ts, Sql.Says (Sql.lexemes bound r.whereClause) ts ↔ ts = whole)) ∧
    (∀ v, Sql.holds v whole = ((Sql.earlier alone).any (Sql.meets v) ||
      (Sql.meets v (Sql.latest alone) && search.any v))) ∧
    ((∀ v, Sql.holds v whole = (Sql.holds v alone && search.any v)) ↔
      ∀ t ∈ alone, t.joiner ≠ some .or) := by
  obtain ⟨bound, ns, hbound, hns, hrenders⟩ := select_renders h
  obtain ⟨u, hsurvey⟩ := survey_of_select h hns
  obtain ⟨field, fields, hcons⟩ := List.exists_cons_of_ne_nil hfields
  rw [hcons] at hns ⊢
  obtain rfl := effectiveNodes_of_search htext hns
  have htoNat : k.offset.toNat = bound := by rw [hbound, Int.toNat_natCast]
  rw [htoNat]
  intro bound' alone search whole
  have hwhole : Sql.settle true (outline c.dialect c.aliases bound _) = whole :=
    c.settle_outline_search bound text field fields s.nodes
  have hsearch : search ≠ [] := by
    intro hnil
    rw [show search = _ :: _ from c.searchTests_cons _ field fields] at hnil
    cases hnil
  -- the search never begins an alternative of its own
  have hjoiner : (Sql.Term.group (if alone.isEmpty then none else some .and)
      (Sql.anyOf search)).joiner ≠ some .or := by
    rw [Sql.Term.joiner]
    cases alone.isEmpty <;> decide
  refine ⟨?_, ?_, ?_⟩
  · -- both clauses render nodes that are joined, so each reads as the outline of its own
    obtain ⟨r₀, hr₀, hrenders₀⟩ := select_alone hbound hsurvey
    refine ⟨r₀, hr₀, ?_, ?_, fun hoperator => ⟨hrenders₀.says_iff hoperator hjoined, ?_⟩⟩
    · rw [Sql.pieces_settle]
      exact hrenders₀.whereClause
    · rw [← hwhole, Sql.pieces_settle]
      exact hrenders.whereClause
    · rw [← hwhole]
      exact hrenders.says_iff hoperator (joined_search text field fields hjoined)
  · -- the search is the last term, so it is one more condition on the last alternative
    intro v
    rw [Sql.holds_append_singleton v hjoiner, Sql.Term.holds_group, Sql.holds_anyOf v hsearch]
  · exact Sql.narrows_iff hjoiner hsearch (c.not_mem_searchTests bound _ s.nodes)

/-! ### Two alternatives and a search -/

/-- Two filters joined by `OR`, and a text to search for. -/
def alternativesWithText : Selection :=
  { Selection.everything with
    filters := some [.leaf ⟨"a", "eq", .int 1, none⟩, .leaf ⟨"b", "eq", .int 2, some .or⟩]
    freeText := some "x" }

/-- A search in one field. -/
def searchInName : Compilation := { textFields := ["name"] }

/-- The test of the first alternative. -/
def testA : Sql.Test := ⟨⟨none, "a"⟩, .symbol "=", 1⟩

/-- The test of the second alternative. -/
def testB : Sql.Test := ⟨⟨none, "b"⟩, .symbol "=", 2⟩

/-- The test of the search. -/
def testName : Sql.Test := ⟨⟨none, "name"⟩, .pattern "ILIKE" "%" "%", 3⟩

theorem joined_alternativesWithText : WellJoined true alternativesWithText.nodes :=
  ⟨fun h => Bool.noConfusion h, trivial, fun _ => Option.some_ne_none _, trivial, trivial⟩

theorem select_alternativesWithText :
    (select {} searchInName alternativesWithText).result = .ok ⟨.int standardLimit, .int 0, "",
      "WHERE \"a\" = $1 OR \"b\" = $2 AND ( \"name\" ILIKE '%' || $3 || '%' )",
      [.int 1, .int 2, .text "x"]⟩ := by
  rfl

/-- The search narrows the second alternative. -/
theorem select_search_holds_of_alternatives :
    alternativesWithText.searchText = some "x" ∧ searchInName.textFields ≠ [] ∧
    WellJoined true alternativesWithText.nodes ∧
    ∀ v, Sql.holds v [.test none testA, .test (some .or) testB,
      .group (some .and) [.test none testName]] = (v testA || (v testB && v testName)) := by
  have htext : alternativesWithText.searchText = some "x" := by rfl
  have hfields : searchInName.textFields ≠ [] := List.cons_ne_nil _ _
  have hjoined := joined_alternativesWithText
  obtain ⟨-, hholds, -⟩ :=
    select_search_holds htext hfields hjoined select_alternativesWithText
  refine ⟨htext, hfields, hjoined, fun v => ?_⟩
  let alone : List Sql.Term := [.test none testA, .test (some .or) testB]
  have hv : Sql.holds v (alone ++ [.group (some .and) [.test none testName]]) =
      ((Sql.earlier alone).any (Sql.meets v) ||
        (Sql.meets v (Sql.latest alone) && [testName].any v)) := hholds v
  -- the `OR` closes the first alternative: the search meets the second alone
  have hearlier : Sql.earlier alone = [[.test none testA]] := rfl
  have hlatest : Sql.latest alone = [.test (some .or) testB] := rfl
  rw [hearlier, hlatest] at hv
  simpa [Sql.meets, alone] using hv

/-- **A search that does not narrow.** A row that the first of two alternatives lets through is
found whether the text is in it or not. -/
theorem select_search_widens :
    let clause := "WHERE \"a\" = $1 OR \"b\" = $2 AND ( \"name\" ILIKE '%' || $3 || '%' )"
    let filters := "WHERE \"a\" = $1 OR \"b\" = $2"
    let alone : List Sql.Term := [.test none testA, .test (some .or) testB]
    let whole := alone ++ [.group (some .and) [.test none testName]]
    WellJoined true alternativesWithText.nodes ∧
    (select {} searchInName alternativesWithText).result =
      .ok ⟨.int standardLimit, .int 0, "", clause, [.int 1, .int 2, .text "x"]⟩ ∧
    (select {} searchInName { alternativesWithText with freeText := none }).result =
      .ok ⟨.int standardLimit, .int 0, "", filters, [.int 1, .int 2]⟩ ∧
    Sql.read 0 clause = some whole ∧ Sql.read 0 filters = some alone ∧
    ∃ v, Sql.holds v whole ≠ (Sql.holds v alone && v testName) := by
  refine ⟨joined_alternativesWithText, select_alternativesWithText, by rfl, by rfl, by rfl,
    fun t => t.number == 1, ?_⟩
  -- a row of the first alternative without the text
  decide

end Compiler

end BoundSql
