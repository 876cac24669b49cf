import BoundSql.Proofs.Clause.Strictness
import BoundSql.Proofs.Filter.Agreement

/-!
# Raw data and checked data

A strict compiler reads the nodes of raw data one by one and then checks the rest of it. As far as
the outcome goes, it might as well check the data as a whole and compile the selection that comes of
it, for data as it comes from JSON whose filter, if there is one, is a list.

* `Selection.read_agrees` — the strict reader of selections and the model let the same data through,
  as the same selection;
* `Selection.isRejection_of_read` — where neither does, the reader names a malformed node or lists
  the issues of the data;
* `Compiler.selectRaw_agrees` — the same for compiling, where an offset below zero is refused before
  anything is read.
-/

namespace BoundSql

open Value Report

/-- An error that data is rejected with: a malformed node, or the issues that were found. -/
def Error.IsRejection (e : Error) : Prop := (∃ m : Malformed, e = m.error) ∨ ∃ i, e = .invalid i

/-- The filter among the entries is missing, nothing, or a list. -/
def Value.FilterIsList (es : Entries) : Prop :=
  lookup "filters" es = none ∨ lookup "filters" es = some .null ∨
    ∃ xs, lookup "filters" es = some (.list xs)

namespace Selection

variable {es : Entries}

/-- The filter of raw data is read as it passes the model. -/
theorem readFilters_agrees (hjson : EntriesJson es) (hlist : FilterIsList es) :
    (readFilters true es).Agrees (Check.allowed "filters" optionalNodes none es) := by
  rcases hlist with hmissing | hnull | ⟨xs, hxs⟩
  · rw [Compiler.readFilters_of_no_filter true (.inl hmissing), Check.allowed, hmissing]
    exact .ok none
  · rw [Compiler.readFilters_of_no_filter true (.inr hnull), Check.allowed, hnull]
    exact .ok none
  · have hnodes := Node.readAll_agrees Node.rootPath 0 0 (isJson_of_lookup hjson hxs)
    rw [Compiler.readFilters_of_filter true hxs (fun h => nomatch h), Check.allowed, hxs]
    exact ((hnodes.mapError Malformed.error).map some).below (.key "filters")

/-- A filter that is not read has a malformed node. -/
theorem isRejection_of_readFilters (hlist : FilterIsList es) {e : Error}
    (h : (readFilters true es).result = .error e) : e.IsRejection := by
  rcases hlist with hmissing | hnull | ⟨xs, hxs⟩
  · rw [Compiler.readFilters_of_no_filter true (.inl hmissing)] at h
    cases h
  · rw [Compiler.readFilters_of_no_filter true (.inr hnull)] at h
    cases h
  · rw [Compiler.readFilters_of_filter true hxs (fun h => nomatch h)] at h
    obtain ⟨m, -, rfl⟩ := result_mapError_eq_error.mp (result_map_eq_error.mp h)
    exact .inl ⟨m, rfl⟩

/-- The other fields are checked once the filter is there. -/
theorem checkWith_eq_ok_iff {filters : Checked (Option (List Node))} {s : Selection} :
    checkWith filters es = .ok s ↔ ∃ f, filters = .ok f ∧ checkWith (.ok f) es = .ok s := by
  cases filters with
  | ok f => simp
  | issues found =>
    constructor
    · -- what passes has passed all its fields, and the filter is the innermost of them
      intro h
      simp only [checkWith, Check.closed_eq_ok, Checked.zipWith_eq_ok] at h
      obtain ⟨-, _, _, ⟨_, _, ⟨_, _, ⟨_, _, hfilters, -⟩, -⟩, -⟩, -⟩ := h
      cases hfilters
    · rintro ⟨f, hfilters, -⟩
      cases hfilters

/-- What remains to be checked of raw data once its filter is read. -/
def checkRest (es : Entries) (filters : Option (List Node)) : Report Error Selection :=
  .ofExcept (((checkWith (.ok filters) es).toExcept .selection).mapError .invalid)

theorem read_map (strict : Bool) (es : Entries) :
    read strict (.map es) = (readFilters strict es).bind (checkRest es) := by
  have hentries : read strict (.map es) =
      (Report.ofExcept (.ok es)).bind fun es => (readFilters strict es).bind (checkRest es) := rfl
  rw [hentries, ofExcept_ok_bind]

theorem checkRest_agrees (filters : Option (List Node)) :
    (checkRest es filters).Agrees (checkWith (.ok filters) es) := by
  unfold checkRest
  cases checkWith (.ok filters) es with
  | ok s => exact .ok s
  | issues found => exact .of_rejected rfl rfl

/-- **Raw data is read as it passes the model.** -/
theorem read_agrees (hjson : EntriesJson es) (hlist : FilterIsList es) :
    (read true (.map es)).Agrees (check (.map es)) := by
  intro s
  rw [read_map, result_bind_eq_ok]
  -- on both sides the filter comes first, and the rest is checked by the same check
  refine Iff.trans ?_ checkWith_eq_ok_iff.symm
  refine exists_congr fun filters => and_congr ?_ ?_
  · exact readFilters_agrees hjson hlist filters
  · exact checkRest_agrees filters s

/-- **Raw data that is not read is rejected** for a malformed node or for its issues. -/
theorem isRejection_of_read (hlist : FilterIsList es) {e : Error}
    (h : (read true (.map es)).result = .error e) : e.IsRejection := by
  rw [read_map] at h
  -- the filters are read before the other entries are checked
  rcases result_bind_eq_error.mp h with hfilters | ⟨filters, -, hrest⟩
  · exact isRejection_of_readFilters hlist hfilters
  · unfold checkRest at hrest
    cases hcheck : checkWith (.ok filters) es with
    | ok s =>
      rw [hcheck] at hrest
      cases hrest
    | issues found =>
      -- issues of the other entries are the second kind of rejection
      rw [hcheck] at hrest
      cases hrest
      exact .inr ⟨_, rfl⟩

end Selection

namespace Compiler

theorem checkOffset_of_nonneg {offset : Int} (h : 0 ≤ offset) : checkOffset offset = .ok () :=
  if_neg (Int.not_lt.mpr h)

theorem checkOffset_of_neg {offset : Int} (h : offset < 0) :
    checkOffset offset = .error (.misuse (.negativeOffset offset)) :=
  if_pos h

/-- An offset below zero is refused before anything is read. -/
theorem selectRaw_of_neg (c : Compiler) {k : Compilation} (h : k.offset < 0) (v : Value) :
    (c.selectRaw k v).result = .error (.misuse (.negativeOffset k.offset)) := by
  rw [selectRaw, checkOffset_of_neg h]
  rfl

/-- Behind a good offset raw data that is not read is not compiled. -/
theorem selectRaw_of_read_error (c : Compiler) {k : Compilation} (h : 0 ≤ k.offset) {v : Value}
    {e : Error} (he : (Selection.read c.strict v).result = .error e) :
    (c.selectRaw k v).result = .error e := by
  rw [selectRaw, checkOffset_of_nonneg h, ofExcept_ok_bind, bind_of_error he]

/-- Raw data that is read compiles as the selection it is read as, behind any offset. -/
theorem selectRaw_of_read (c : Compiler) (k : Compilation) {v : Value} {s : Selection}
    (hs : (Selection.read c.strict v).result = .ok s) :
    (c.selectRaw k v).result = (c.select k s).result := by
  unfold selectRaw select
  cases hoffset : checkOffset k.offset with
  | error e => rfl
  | ok u => rw [ofExcept_ok_bind, ofExcept_ok_bind, bind_of_ok hs, after]

/-- **Compiling raw data is compiling what passes the model.** For data as it comes from JSON whose
filter, if there is one, is a list, and any aliases, text fields and offset:

* data that passes as a selection has the outcome of that selection, a result or an error;
* data that does not pass is rejected for a malformed node or for its issues, unless the offset is
  below zero, which is refused first;
* siblings are read as exactly the nodes they pass as.
-/
theorem selectRaw_agrees (c : Compiler) (k : Compilation) {es : Entries}
    (hjson : (Value.map es).IsJson) (hlist : FilterIsList es) :
    (∀ s, Selection.check (.map es) = .ok s →
      (c.strictly.selectRaw k (.map es)).result = (c.strictly.select k s).result) ∧
    (∀ found, Selection.check (.map es) = .issues found → 0 ≤ k.offset →
      ∃ e, (c.strictly.selectRaw k (.map es)).result = .error e ∧ e.IsRejection) ∧
    (k.offset < 0 → (c.strictly.selectRaw k (.map es)).result =
      .error (.misuse (.negativeOffset k.offset))) ∧
    ∀ xs, lookup "filters" es = some (.list xs) → ∀ ns,
      (Node.readAll true Node.rootPath 0 xs).result = .ok ns ↔ Node.checkAll 0 xs = .ok ns := by
  -- the reader and the model agree on data as it comes from JSON
  have hread := Selection.read_agrees hjson hlist
  refine ⟨?_, ?_, ?_, ?_⟩
  · intro s hs
    exact c.strictly.selectRaw_of_read k ((hread s).mpr hs)
  · intro found hfound hoffset
    obtain ⟨e, he⟩ := hread.error_of_issues hfound
    refine ⟨e, c.strictly.selectRaw_of_read_error hoffset he, ?_⟩
    exact Selection.isRejection_of_read hlist he
  · -- the offset is looked at before the data
    intro hoffset
    exact c.strictly.selectRaw_of_neg hoffset _
  · intro xs hxs
    exact Node.readAll_agrees Node.rootPath 0 0 (isJson_of_lookup hjson hxs)

/-- Raw data with a group behind a leaf, and the entries of the leaf as given. -/
def petsWith (leaf : Entries) : Entries :=
  let old : Entries :=
    [(.text "field", .text "age"), (.text "operator", .text "GTE"), (.text "value", .int 3)]
  let group : Entries :=
    [(.text "conditionType", .text "or"), (.text "expressions", .list [.map old])]
  [(.text "filters", .list [.map leaf, .map group]), (.text "limit", .text "5")]

/-- A leaf, and the same with children of its own. -/
def catLeaf : Entries := [(.text "field", .text "kind"), (.text "operator", .text "EQ")]

/-- The selection that data with the leaf passes as. -/
def cats : Selection :=
  { Selection.ofNodes [.leaf ⟨"kind", "eq", .null, none⟩,
      .group [.leaf ⟨"age", "gte", .int 3, none⟩] (some .or)] with
    limit := some (.ofNat 5) }

/-- A node that is both a leaf and a group is neither for the reader and for the model. -/
theorem selectRaw_agrees_of_pets :
    let hybrid := petsWith ((.text "expressions", .list []) :: catLeaf)
    ((standard.strictly.selectRaw {} (.map (petsWith catLeaf))).result =
      (standard.strictly.select {} cats).result) ∧
    (∃ e, (standard.strictly.selectRaw {} (.map hybrid)).result = .error e ∧ e.IsRejection) ∧
    (standard.strictly.selectRaw { offset := -1 } (.map hybrid)).result =
      .error (.misuse (.negativeOffset (-1))) := by
  intro hybrid
  have hjson : ∀ leaf, EntriesJson leaf → (Value.map (petsWith leaf)).IsJson := by
    intro leaf hleaf
    simp [petsWith, Value.IsJson, EntriesJson, AllJson, hleaf]
  have hcat : EntriesJson catLeaf := by
    simp [catLeaf, Value.IsJson, EntriesJson]
  have hboth : EntriesJson ((.text "expressions", .list []) :: catLeaf) :=
    ⟨⟨_, rfl⟩, trivial, hcat⟩
  have hlist : ∀ leaf, FilterIsList (petsWith leaf) := fun leaf => .inr (.inr ⟨_, rfl⟩)
  have hcats : Selection.check (.map (petsWith catLeaf)) = .ok cats := by
    rfl
  -- which issues are found does not matter
  have hissues : ∃ found, Selection.check (.map hybrid) = .issues found := ⟨_, rfl⟩
  obtain ⟨found, hfound⟩ := hissues
  obtain ⟨hpasses, -, -, -⟩ := selectRaw_agrees standard {} (hjson catLeaf hcat) (hlist catLeaf)
  obtain ⟨-, hrejected, -, -⟩ := selectRaw_agrees standard {} (hjson _ hboth) (hlist _)
  obtain ⟨-, -, hrefused, -⟩ :=
    selectRaw_agrees standard { offset := -1 } (hjson _ hboth) (hlist _)
  exact ⟨hpasses cats hcats, hrejected found hfound (by decide), hrefused (by decide)⟩

/-- Data that does not pass is not always rejected for what is wrong with it: a bad offset comes
first. -/
theorem not_rejected_of_bad_offset :
    ¬ ∀ (c : Compiler) (k : Compilation) (es : Entries) (found : List Issue),
      (Value.map es).IsJson → FilterIsList es → Selection.check (.map es) = .issues found →
      ∃ e, (c.strictly.selectRaw k (.map es)).result = .error e ∧ e.IsRejection := by
  intro h
  have hjson : (Value.map [(.text "limit", .int (-1))]).IsJson := ⟨⟨_, rfl⟩, trivial, trivial⟩
  have hcheck : Selection.check (.map [(.text "limit", .int (-1))]) =
      .issues [⟨.negative, [.key "limit"]⟩] := by
    rfl
  obtain ⟨e, he, hrejection⟩ := h {} { offset := -1 } _ _ hjson (.inl rfl) hcheck
  rw [selectRaw_of_neg _ (by decide)] at he
  obtain rfl := Except.error.inj he
  -- a negative offset is neither a malformed node nor a list of issues
  rcases hrejection with ⟨m, hm⟩ | ⟨i, hi⟩
  · cases hm
  · cases hi

end Compiler

end BoundSql
