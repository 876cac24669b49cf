import BoundSql.Proofs.Clause.Compiled
import BoundSql.Proofs.Filter.Masking
import Mathlib.Data.List.Forall2

/-!
# Clauses without their values

What is compiled from a selection depends on the values of its leaves, on its limit and offset and
on its text to search for only in the values that are bound. Its `Compiled.shape`, the two clauses
and the number of the values, is the same for selections that differ in nothing else, and so is the
error if there is one.

* `Compiler.clause_maskedAll` — the clause of masked nodes;
* `Selection.Alike`, `Compiler.select_shape` — checked selections;
* `Compiler.filter_shape` — filters alone;
* `Selection.RawAlike`, `Compiler.selectRaw_shape` — raw data.
-/

namespace BoundSql

open Node Value

/-! ### The leaves and the outline of masked nodes -/

namespace Node

theorem leavesOf_maskedAll (ns : List Node) :
    leavesOf (maskedAll ns) = (leavesOf ns).map Leaf.masked := by
  induction ns using forest_induction with
  | nil => rfl
  | leaf l ns ih => exact congrArg (l.masked :: ·) ih
  | group children j ns ihInner ih =>
    show leavesOf (maskedAll children) ++ leavesOf (maskedAll ns) =
      (leavesOf children ++ leavesOf ns).map Leaf.masked
    rw [ihInner, ih, List.map_append]

theorem kept_maskedAll (ns : List Node) :
    kept (maskedAll ns) = (kept ns).map fun k => (k.1.masked, k.2) := by
  have hkept : Leaf.kept? ∘ Leaf.masked = fun l => l.kept?.map fun k => (k.1.masked, k.2) := by
    funext l
    show l.form?.map _ = (l.form?.map _).map _
    rw [Option.map_map]
    rfl
  rw [kept, leavesOf_maskedAll, List.filterMap_map, hkept, kept, List.map_filterMap]

theorem length_kept_maskedAll (ns : List Node) :
    (kept (maskedAll ns)).length = (kept ns).length := by
  rw [kept_maskedAll, List.length_map]

/-- **The outline** does not show the values. -/
theorem outline_maskedAll (d : Dialect) (aliases : Aliases) (bound : Nat) (ns : List Node) :
    outline d aliases bound (maskedAll ns) = outline d aliases bound ns := by
  induction ns using forest_induction generalizing bound with
  | nil => rfl
  | leaf l ns ih =>
    -- masking keeps the operator, so the same leaves are dropped
    cases hf : l.form? with
    | none =>
      have hmasked : l.masked.form? = none := hf
      rw [outline_leaf_of_dropped d aliases bound hf, ← ih]
      exact outline_leaf_of_dropped d aliases bound hmasked (maskedAll ns)
    | some f =>
      have hmasked : l.masked.form? = some f := hf
      rw [outline_leaf_of_kept d aliases bound hf, ← ih]
      exact outline_leaf_of_kept d aliases bound hmasked (maskedAll ns)
  | group children j ns ihInner ih =>
    -- as many leaves are kept inside, so the numbers behind the group are the same
    show outline d aliases bound (group (maskedAll children) j :: maskedAll ns) = _
    rw [outline_group_cons, ihInner, ih, length_kept_maskedAll, outline_group_cons]

end Node

namespace Compiler

variable (c : Compiler)

theorem survey_masked (ls : List Leaf) : c.survey (ls.map Leaf.masked) = c.survey ls := by
  induction ls with
  | nil => rfl
  | cons l ls ih =>
    have hverdict : c.verdict l.masked = c.verdict l := rfl
    rw [List.map_cons, survey, survey, ih, hverdict]

/-- **The clause of masked nodes** is the same, with as many values. -/
theorem clause_maskedAll (bound : Nat) (ns : List Node) :
    (c.clause bound (maskedAll ns)).result.map (fun clause => (clause.1, clause.2.length)) =
      (c.clause bound ns).result.map fun clause => (clause.1, clause.2.length) := by
  rw [clause, clause, render_eq, render_eq, leavesOf_maskedAll, survey_masked, outline_maskedAll]
  show (((c.survey (leavesOf ns)).result.map _).mapError _).map _ =
    (((c.survey (leavesOf ns)).result.map _).mapError _).map _
  cases (c.survey (leavesOf ns)).result with
  | error e => rfl
  | ok u =>
    show Except.ok (_, (values (maskedAll ns)).length) = Except.ok (_, (values ns).length)
    rw [length_values, length_values, length_kept_maskedAll]

/-- Nodes that are the same without their values have the same clause, with as many values. -/
theorem clause_of_maskedAll_eq {bound : Nat} {ns ns' : List Node}
    (h : maskedAll ns = maskedAll ns') :
    (c.clause bound ns).result.map (fun clause => (clause.1, clause.2.length)) =
      (c.clause bound ns').result.map fun clause => (clause.1, clause.2.length) := by
  rw [← c.clause_maskedAll, h, c.clause_maskedAll]

end Compiler

/-! ### Checked selections -/

/-- What a compiled selection shows without its values: the clauses, and how many values there
are. -/
def Compiled.shape (r : Compiled) : String × String × Nat :=
  (r.whereClause, r.sortClause, r.values.length)

theorem Compiled.shape_eq_iff {r r' : Compiled} : r.shape = r'.shape ↔
    r.whereClause = r'.whereClause ∧ r.sortClause = r'.sortClause ∧
      r.values.length = r'.values.length := by
  simp [shape]

namespace Selection

/-- **Selections that differ only in values**: in those of the leaves, in limit and offset, and in
what is searched for, if both search for something. -/
structure Alike (s s' : Selection) : Prop where
  filters : s.filters.map maskedAll = s'.filters.map maskedAll
  sort : s.sort = s'.sort
  searches : s.searchText.isSome = s'.searchText.isSome

theorem Alike.nodes {s s' : Selection} (h : s.Alike s') :
    maskedAll s.nodes = maskedAll s'.nodes := by
  have hfilters := h.filters
  unfold Selection.nodes
  -- a selection without a filter is like none that has one
  cases hs : s.filters with
  | none =>
    rw [hs] at hfilters
    rw [Option.map_eq_none_iff.mp hfilters.symm]
  | some ns =>
    rw [hs] at hfilters
    obtain ⟨ns', hns', hmasked⟩ := Option.map_eq_some_iff.mp hfilters.symm
    rw [hns']
    exact hmasked.symm

/-- The fields are searched alike for any text. -/
theorem searchLeaves_maskedAll (text text' : String) (first : Bool) (fields : List String) :
    (searchLeaves text first fields).map maskedAll =
      (searchLeaves text' first fields).map maskedAll := by
  induction fields generalizing first with
  | nil => rfl
  | cons field fields ih =>
    have hrest := ih false
    rw [searchLeaves, searchLeaves]
    cases (Check.name (.text field)).below (.key "field") with
    | issues found => rfl
    | ok name =>
      -- the fields behind are refused together or searched together
      rcases Report.error_or_ok_of_map_eq hrest with ⟨e, he, he'⟩ | ⟨ns, ns', hns, hns', hmasked⟩
      · rw [he, he']
        rfl
      · rw [hns, hns']
        exact congrArg (fun ns => Except.ok (_ :: ns)) hmasked

/-- The nodes with the search behind them differ only in values too. -/
theorem Alike.effectiveNodes {s s' : Selection} (h : s.Alike s') (fields : List String) :
    (s.effectiveNodes fields).map maskedAll = (s'.effectiveNodes fields).map maskedAll := by
  have hnodes := h.nodes
  have hempty : s.nodes.isEmpty = s'.nodes.isEmpty := by
    rw [← isEmpty_maskedAll, hnodes, isEmpty_maskedAll]
  have hsearches := h.searches
  cases fields with
  | nil =>
    -- without fields there is no search, whatever the texts
    have hnone (s : Selection) : s.effectiveNodes [] = .ok s.nodes := by
      unfold Selection.effectiveNodes
      cases s.searchText <;> rfl
    rw [hnone, hnone]
    exact congrArg Except.ok hnodes
  | cons field fields =>
    unfold Selection.effectiveNodes
    cases ht : s.searchText with
    | none =>
      rw [ht] at hsearches
      rw [Option.isSome_eq_false_iff.mp hsearches.symm |> Option.isNone_iff_eq_none.mp]
      exact congrArg Except.ok hnodes
    | some text =>
      -- both search, for texts of their own, and behind the same nodes
      rw [ht] at hsearches
      obtain ⟨text', ht'⟩ := Option.isSome_iff_exists.mp hsearches.symm
      rw [ht', hempty]
      have hleaves := searchLeaves_maskedAll text text' true (field :: fields)
      rcases Report.error_or_ok_of_map_eq hleaves with ⟨e, he, he'⟩ | ⟨ns, ns', hns, hns', hmasked⟩
      · simp only [he, he']
        rfl
      · simp only [hns, hns']
        refine congrArg Except.ok ?_
        simp only [maskedAll_append, maskedAll, masked, hnodes, hmasked]

end Selection

namespace Compiler

variable (c : Compiler)

/-- **Selections that differ only in values** are compiled to the same shape, or to the same
error. -/
theorem select_shape (k : Compilation) {s s' : Selection} (h : s.Alike s') :
    (c.select k s).result.map Compiled.shape = (c.select k s').result.map Compiled.shape := by
  cases hoffset : checkOffset k.offset with
  | error e =>
    rw [select, select, hoffset]
    rfl
  | ok u =>
    obtain ⟨bound, hbound⟩ := exists_of_checkOffset hoffset
    rw [select, select, hoffset, Report.ofExcept_ok_bind, Report.ofExcept_ok_bind, assemble,
      assemble, hbound]
    -- step by step: the nodes are masked alike, so their clauses have one text and one length
    refine Report.map_result_bind_eq (h.effectiveNodes k.textFields) fun ns ns' hnodes => ?_
    refine Report.map_result_map_eq (c.clause_of_maskedAll_eq hnodes) ?_
    intro clause clause' hclause
    obtain ⟨htext, hlength⟩ := Prod.mk.inj hclause
    show (withKeyword _ clause.1, _, clause.2.length) =
      (withKeyword _ clause'.1, _, clause'.2.length)
    rw [htext, hlength, h.sort]

/-- **Filters that differ only in values** are compiled to the same shape, or to the same error. -/
theorem filter_shape (offset : Int) {v v' : Value} (h : v.maskedFilter = v'.maskedFilter) :
    (c.filter offset v).result.map Compiled.shape =
      (c.filter offset v').result.map Compiled.shape := by
  have hread : (ofFilters c.strict v).result.map maskedAll =
      (ofFilters c.strict v').result.map maskedAll := by
    rw [← ofFilters_maskedFilter, h, ofFilters_maskedFilter]
  refine Report.map_result_bind_eq hread fun ns ns' hnodes => ?_
  exact c.select_shape _ ⟨congrArg some hnodes, rfl, rfl⟩

end Compiler

/-! ### Raw data -/

/-- Whether a value is a text that is searched for. -/
def Value.IsSearchText (v : Value) : Prop :=
  ∃ text, Check.optionalText v = .ok (some text) ∧ Text.isBlankText text = false

namespace Selection

/-- **Settings of raw data that differ only in values.** -/
inductive SettingAlike : Value × Value → Value × Value → Prop where
  | same (e : Value × Value) : SettingAlike e e
  | filters {k v v' : Value} (hk : k.isKey "filters" = true)
      (h : v.maskedFilter = v'.maskedFilter) : SettingAlike (k, v) (k, v')
  | limit {k v v' : Value} (hk : k.isKey "limit" = true) : SettingAlike (k, v) (k, v')
  | offset {k v v' : Value} (hk : k.isKey "offset" = true) : SettingAlike (k, v) (k, v')
  | text {k v v' : Value} (hk : k.isKey "freeText" = true ∨ k.isKey "free_text" = true)
      (hv : v.IsSearchText) (hv' : v'.IsSearchText) : SettingAlike (k, v) (k, v')

/-- **Raw data that differs only in values**: the same data, built selections, or data with the same
settings in the same order, as mappings or as pairs. -/
inductive RawAlike : Value → Value → Prop where
  | same (v : Value) : RawAlike v v
  | built {v v' : Value} {s s' : Selection} (hs : ofValue? v = some s) (hs' : ofValue? v' = some s')
      (h : s.Alike s') : RawAlike v v'
  | entries {v v' : Value} {es es' : Entries} (hv : ofValue? v = none) (hv' : ofValue? v' = none)
      (hes : v.toEntries = .ok es) (hes' : v'.toEntries = .ok es')
      (h : List.Forall₂ SettingAlike es es') : RawAlike v v'

/-- Settings that differ only in values are looked up as such. -/
theorem lookup_alike {es es' : Entries} (h : List.Forall₂ SettingAlike es es') (name : String) :
    Option.Rel (fun v v' => ∃ k : Value, k.isKey name = true ∧ SettingAlike (k, v) (k, v'))
      (lookup name es) (lookup name es') := by
  induction h with
  | nil => exact .none
  | @cons e e' es es' he _ ih =>
    obtain ⟨k, v⟩ := e
    obtain ⟨k', v'⟩ := e'
    -- the keys are the same, so both sides find their value in the same place
    obtain rfl : k = k' := by cases he <;> rfl
    rw [lookup, lookup]
    by_cases hk : k.isKey name = true
    · rw [if_pos hk, if_pos hk]
      exact .some ⟨k, hk, he⟩
    · rw [if_neg hk, if_neg hk]
      exact ih

/-- A setting that holds no value is the same. -/
theorem SettingAlike.eq_of_isKey {k v v' : Value} {name : String}
    (h : SettingAlike (k, v) (k, v')) (hk : k.isKey name = true)
    (hname : name ∉ ["filters", "limit", "offset", "freeText", "free_text"]) : v = v' := by
  -- a key of this name is none of those whose values may differ
  have hother {other : String} (hother : k.isKey other = true)
      (hmem : other ∈ ["filters", "limit", "offset", "freeText", "free_text"]) : v = v' := by
    have hne : name ≠ other := fun heq => hname (heq ▸ hmem)
    exact absurd hother (not_isKey_of_isKey hk hne)
  cases h with
  | same => rfl
  | filters hkey => exact hother hkey (by simp)
  | limit hkey => exact hother hkey (by simp)
  | offset hkey => exact hother hkey (by simp)
  | text hkey =>
    rcases hkey with hkey | hkey
    · exact hother hkey (by simp)
    · exact hother hkey (by simp)

/-- Filters among settings are the same without their values. -/
theorem SettingAlike.maskedFilter_eq {k v v' : Value} (h : SettingAlike (k, v) (k, v'))
    (hk : k.isKey "filters" = true) : v.maskedFilter = v'.maskedFilter := by
  cases h with
  | same => rfl
  | filters _ h => exact h
  | limit hkey => exact absurd hkey (not_isKey_of_isKey hk (by decide))
  | offset hkey => exact absurd hkey (not_isKey_of_isKey hk (by decide))
  | text hkey =>
    rcases hkey with hkey | hkey
    · exact absurd hkey (not_isKey_of_isKey hk (by decide))
    · exact absurd hkey (not_isKey_of_isKey hk (by decide))

theorem maskedFilter_eq_null {v : Value} : v.maskedFilter = .null ↔ v = .null := by
  cases v <;> simp [maskedFilter]

/-- The filters among settings that differ only in values are read alike. -/
theorem readFilters_alike (strict : Bool) {es es' : Entries}
    (h : List.Forall₂ SettingAlike es es') :
    (readFilters strict es).result.map (Option.map maskedAll) =
      (readFilters strict es').result.map (Option.map maskedAll) := by
  have hlookup := lookup_alike h "filters"
  cases hfound : lookup "filters" es with
  | none =>
    rw [hfound] at hlookup
    generalize hfound' : lookup "filters" es' = found' at hlookup
    cases hlookup
    rw [Compiler.readFilters_of_no_filter strict (.inl hfound),
      Compiler.readFilters_of_no_filter strict (.inl hfound')]
  | some v =>
    rw [hfound] at hlookup
    generalize hfound' : lookup "filters" es' = found' at hlookup
    cases hlookup with
    | @some _ v' hsetting =>
      obtain ⟨k, hk, hsetting⟩ := hsetting
      have hmasked := hsetting.maskedFilter_eq hk
      -- masking does not turn a filter into null or null into a filter
      by_cases hnull : v = .null
      · have hnull' : v' = .null := by
          rw [← maskedFilter_eq_null, ← hmasked, maskedFilter_eq_null]
          exact hnull
        subst hnull hnull'
        rw [Compiler.readFilters_of_no_filter strict (.inr hfound),
          Compiler.readFilters_of_no_filter strict (.inr hfound')]
      · have hnull' : v' ≠ .null := by
          rw [Ne, ← maskedFilter_eq_null, ← hmasked, maskedFilter_eq_null]
          exact hnull
        rw [Compiler.readFilters_of_filter strict hfound hnull,
          Compiler.readFilters_of_filter strict hfound' hnull']
        -- items are read as their masked ones are, and these are the same
        have hread : (readItems strict rootPath v).result.map maskedAll =
            (readItems strict rootPath v').result.map maskedAll := by
          rw [← readItems_maskedFilter, hmasked, readItems_maskedFilter]
        exact Report.map_result_map_eq hread fun ns ns' hnodes => congrArg some hnodes

/-- A field that holds no value passes alike. -/
theorem allowed_alike {α : Type} {es es' : Entries} (h : List.Forall₂ SettingAlike es es')
    {name : String} (hname : name ∉ ["filters", "limit", "offset", "freeText", "free_text"])
    (check : Value → Checked α) (default : α) :
    Check.allowed name check default es = Check.allowed name check default es' := by
  have hlookup := lookup_alike h name
  unfold Check.allowed
  generalize lookup name es = found at hlookup ⊢
  generalize lookup name es' = found' at hlookup ⊢
  cases hlookup with
  | none => rfl
  | some hsetting =>
    obtain ⟨k, hk, hsetting⟩ := hsetting
    rw [hsetting.eq_of_isKey hk hname]

/-- A text to search for is searched for. -/
theorem searchText_isSome {s : Selection} {v : Value} (hv : v.IsSearchText)
    (h : Check.optionalText v = .ok s.freeText) : s.searchText.isSome = true := by
  obtain ⟨text, htext, hblank⟩ := hv
  have hfree : s.freeText = some text := (Checked.ok.inj (htext.symm.trans h)).symm
  rw [searchText, hfree, Option.filter_some, hblank]
  rfl

/-- Texts to search for are there on both sides or on neither. -/
theorem searchText_alike {s s' : Selection} {es es' : Entries}
    (h : List.Forall₂ SettingAlike es es')
    (hs : Check.allowed (Check.spelling "freeText" "free_text" es) Check.optionalText none es =
      .ok s.freeText)
    (hs' : Check.allowed (Check.spelling "freeText" "free_text" es') Check.optionalText none es' =
      .ok s'.freeText) : s.searchText.isSome = s'.searchText.isSome := by
  -- the text is looked for under the same name on both sides
  have hspelling : Check.spelling "freeText" "free_text" es' =
      Check.spelling "freeText" "free_text" es := by
    unfold Check.spelling
    have hlookup := lookup_alike h "freeText"
    generalize lookup "freeText" es = found at hlookup ⊢
    generalize lookup "freeText" es' = found' at hlookup ⊢
    cases hlookup <;> rfl
  rw [hspelling] at hs'
  generalize hname : Check.spelling "freeText" "free_text" es = name at hs hs'
  have hnames : name ∈ ["freeText", "free_text"] := by
    rw [← hname, Check.spelling]
    split <;> simp
  have hlookup := lookup_alike h name
  unfold Check.allowed at hs hs'
  generalize lookup name es = found at hlookup hs
  generalize lookup name es' = found' at hlookup hs'
  cases hlookup with
  | none =>
    -- neither gives a text, so both have the default
    have hsame : s.freeText = s'.freeText := Checked.ok.inj (hs.symm.trans hs')
    rw [searchText, searchText, hsame]
  | some hsetting =>
    obtain ⟨k, hk, hsetting⟩ := hsetting
    have hcheck := Checked.below_eq_ok.mp hs
    have hcheck' := Checked.below_eq_ok.mp hs'
    -- a setting under this name is none of the others that may differ
    have hother {other : String} (hkey : k.isKey other = true)
        (hne : other ∉ ["freeText", "free_text"]) : s.searchText.isSome = s'.searchText.isSome :=
      absurd hkey (not_isKey_of_isKey hk fun heq => hne (heq ▸ hnames))
    cases hsetting with
    | same =>
      have hsame : s.freeText = s'.freeText := Checked.ok.inj (hcheck.symm.trans hcheck')
      rw [searchText, searchText, hsame]
    | filters hkey => exact hother hkey (by simp)
    | limit hkey => exact hother hkey (by simp)
    | offset hkey => exact hother hkey (by simp)
    | text _ hv hv' => rw [searchText_isSome hv hcheck, searchText_isSome hv' hcheck']

/-- The entries of raw data that is read pass as a selection. -/
theorem checked_of_read {strict : Bool} {v : Value} {s : Selection} {es : Entries}
    (hv : ofValue? v = none) (hes : v.toEntries = .ok es)
    (h : (read strict v).result = .ok s) :
    ∃ filters, (readFilters strict es).result = .ok filters ∧
      checkWith (.ok filters) es = .ok s := by
  rcases Compiler.built_or_checked_of_read h with
    hbuilt | ⟨-, es', filters, hes', hfilters, hcheck⟩
  · rw [hv] at hbuilt
    cases hbuilt
  · obtain rfl := Except.ok.inj (hes.symm.trans hes')
    exact ⟨filters, hfilters, hcheck⟩

/-- **Raw data that differs only in values** is read as selections that do. -/
theorem read_alike {strict : Bool} {v v' : Value} (h : RawAlike v v') {s s' : Selection}
    (hs : (read strict v).result = .ok s) (hs' : (read strict v').result = .ok s') :
    s.Alike s' := by
  cases h with
  | same =>
    obtain rfl := Except.ok.inj (hs.symm.trans hs')
    exact ⟨rfl, rfl, rfl⟩
  | built hv hv' h =>
    -- a selection that is built already is not read
    rw [read, hv] at hs
    rw [read, hv'] at hs'
    cases hs
    cases hs'
    exact h
  | entries hv hv' hes hes' h =>
    obtain ⟨filters, hfilters, hcheck⟩ := checked_of_read hv hes hs
    obtain ⟨filters', hfilters', hcheck'⟩ := checked_of_read hv' hes' hs'
    -- of what is checked only the nodes, the sort and the text show in the shape
    obtain ⟨-, rfl, hsort, -, -, htext⟩ := checkWith_eq_ok.mp hcheck
    obtain ⟨-, rfl, hsort', -, -, htext'⟩ := checkWith_eq_ok.mp hcheck'
    have hnodes := readFilters_alike strict h
    rw [hfilters, hfilters'] at hnodes
    rw [allowed_alike h (by simp) optionalSort none, hsort'] at hsort
    exact ⟨Except.ok.inj hnodes, (Checked.ok.inj hsort).symm, searchText_alike h htext htext'⟩

end Selection

/-- **Raw data that differs only in values** is compiled to the same shape, if it is compiled. -/
theorem Compiler.selectRaw_shape (c : Compiler) (k : Compilation) {v v' : Value}
    (h : Selection.RawAlike v v') {r r' : Compiled} (hr : (c.selectRaw k v).result = .ok r)
    (hr' : (c.selectRaw k v').result = .ok r') : r.shape = r'.shape := by
  obtain ⟨s, hs, hselect⟩ := c.select_of_selectRaw hr
  obtain ⟨s', hs', hselect'⟩ := c.select_of_selectRaw hr'
  have hshape := c.select_shape k (Selection.read_alike h hs hs')
  rw [hselect, hselect'] at hshape
  exact Except.ok.inj hshape

end BoundSql
