import BoundSql.Compile
import BoundSql.Proofs.Filter.Spelling

/-!
# Compiling in any spelling

A raw selection may be written with operators, joiners and the direction of its order in any case,
and with either spelling of the keys of joiners and of the free text. Two selections that are the
same when written uniformly are compiled to the same clauses and values, or fail in the same way. An
error of the model names the keys where it found issues, so apart from these places it is the same
error; a malformed node has the same path.

* `Selection.read_uniformSelection` — a selection is read alike in uniform spelling;
* `Compiler.selectRaw_eq_of_uniform_eq` — spelling does not change a compilation.
-/

namespace BoundSql

/-- An error without the places of its issues. Its class, its wording and its path stay. -/
def Error.unplaced : Error → Error
  | .invalid ⟨model, found⟩ => .invalid ⟨model, found.map fun i => { i with place := [] }⟩
  | e => e

namespace Value

/-- The value of a key of a raw sort in uniform spelling. -/
def uniformOrder (k v : Value) : Value := if k.isKey "order" then v.uniformText else v

theorem uniformOrder_of_key {k : Value} (v : Value) (hk : k.isKey "key" = true) :
    uniformOrder k v = v :=
  if_neg (not_isKey_of_isKey hk (by decide))

/-- A raw sort in uniform spelling. -/
def uniformSort : Value → Value
  | map es => map (respell uniformOrder es)
  | v => v

/-- The value of a key of a raw selection in uniform spelling. -/
def uniformSetting (k v : Value) : Value :=
  if k.isKey "filters" then v.uniformChildren else if k.isKey "sort" then v.uniformSort else v

/-- The entries of a raw selection in uniform spelling. -/
def uniformSelection (es : Entries) : Entries := respell uniformSetting es

theorem uniformSetting_of_sort {k : Value} (v : Value) (hk : k.isKey "sort" = true) :
    uniformSetting k v = v.uniformSort := by
  rw [uniformSetting, if_neg (not_isKey_of_isKey hk (by decide)), if_pos hk]

theorem uniformSetting_of_other {k : Value} {name : String} (v : Value) (hk : k.isKey name = true)
    (hother : name ∉ ["filters", "sort"]) : uniformSetting k v = v := by
  simp only [List.mem_cons, List.not_mem_nil, or_false, not_or] at hother
  rw [uniformSetting, if_neg (not_isKey_of_isKey hk hother.1),
    if_neg (not_isKey_of_isKey hk hother.2)]

/-- The filter among the entries of a raw selection; nothing stands for none. -/
def filtersOf (es : Entries) : Value := (lookup "filters" es).getD null

/-- **Whether a raw selection has one spelling** of each key: of the free text, and of the joiner in
each of its nodes. -/
def hasOneSpelling (es : Entries) : Bool :=
  hasOneOf "freeText" "free_text" es && oneSpellingChildren (filtersOf es)

end Value

open Value

/-! ### Checks -/

/-- A sort is checked alike in uniform spelling. -/
theorem SortKey.faults_check_uniformSort (v : Value) :
    (check v.uniformSort).faults = (check v).faults := by
  cases v with
  | map es =>
    have hself : ∀ name ∈ ["key", "order"], Becomes es name name := fun name hname =>
      becomes_self es (by revert name; decide)
    have hunknown := unknownKeys_respell uniformOrder (List.forall₂_same.mpr hself)
    -- the key is the same value, and the direction is read in any case
    have hkey : (Check.required "key" Check.name (respell uniformOrder es)).faults =
        (Check.required "key" Check.name es).faults :=
      Check.faults_required_respell (g := id) (hself "key" (by decide))
        (fun _ v hk => uniformOrder_of_key v hk) fun _ => rfl
    have horder : (Check.allowed "order" Check.direction Direction.ascending
          (respell uniformOrder es)).faults =
        (Check.allowed "order" Check.direction Direction.ascending es).faults :=
      Check.faults_allowed_respell Direction.ascending (hself "order" (by decide))
        (fun _ _ hk => if_pos hk) fun v => congrArg Checked.faults (Check.direction_uniformText v)
    exact Checked.faults_closed hunknown (Checked.faults_zipWith _ hkey horder)
  | _ => rfl

theorem Selection.faults_optionalSort_uniformSort (v : Value) :
    (optionalSort v.uniformSort).faults = (optionalSort v).faults := by
  cases v with
  | map es => exact Checked.faults_map some (SortKey.faults_check_uniformSort (.map es))
  | _ => rfl

/-- A field of a selection other than its filter and its sort keeps its value. -/
theorem Selection.faults_allowed_uniformSelection {α : Type} (check : Value → Checked α)
    (default : α) {es : Entries} {name uniform : String} (hname : Becomes es name uniform)
    (hother : name ∉ ["filters", "sort"]) :
    (Check.allowed uniform check default (uniformSelection es)).faults =
      (Check.allowed name check default es).faults :=
  Check.faults_allowed_respell (g := id) default hname
    (fun _ v hk => uniformSetting_of_other v hk hother) fun _ => rfl

/-- The rest of a selection whose filter is given is checked alike in uniform spelling. -/
theorem Selection.faults_checkWith_uniformSelection (filters : Option (List Node)) {es : Entries}
    (hone : hasOneOf "freeText" "free_text" es = true) :
    (checkWith (.ok filters) (uniformSelection es)).faults =
      (checkWith (.ok filters) es).faults := by
  -- in uniform spelling the text stands under one name, whichever it had
  have hspelling : Check.spelling "freeText" "free_text" (uniformSelection es) = "free_text" := by
    refine spelling_respell fun s => ?_
    unfold uniformName
    split_ifs <;> first | decide | assumption
  have hself : ∀ name ∈ ["filters", "sort", "limit", "offset"], Becomes es name name :=
    fun name hname => becomes_self es (by revert name; decide)
  have htextKey := becomes_textKey hone
  have hunknown := unknownKeys_respell uniformSetting
    (List.rel_append (List.forall₂_same.mpr hself) (.cons htextKey .nil))
  have hsort := Check.faults_allowed_respell none (hself "sort" (by decide))
    (fun k v hk => uniformSetting_of_sort v hk) faults_optionalSort_uniformSort
  have hlimit := faults_allowed_uniformSelection Check.count none (hself "limit" (by decide))
    (by decide)
  have hoffset := faults_allowed_uniformSelection Check.count none (hself "offset" (by decide))
    (by decide)
  have htext := faults_allowed_uniformSelection Check.optionalText none htextKey (by
    unfold Check.spelling
    split <;> decide)
  -- faults add up field by field, in the order the fields are checked
  rw [checkWith, hspelling]
  exact Checked.faults_closed hunknown (Checked.faults_zipWith _ (Checked.faults_zipWith _
    (Checked.faults_zipWith _ (Checked.faults_zipWith _ rfl hsort) hlimit) hoffset) htext)

/-! ### Reading and compiling -/

/-- Two checks that find the same fail alike, apart from the places of the issues. -/
theorem Checked.unplaced_toExcept {α : Type} {m : Model} {c c' : Checked α}
    (h : c.faults = c'.faults) :
    ((c.toExcept m).mapError Error.invalid).mapError Error.unplaced =
      ((c'.toExcept m).mapError Error.invalid).mapError Error.unplaced := by
  obtain ⟨a, rfl, rfl⟩ | ⟨found, found', rfl, rfl, hsame⟩ := ok_or_issues_of_faults_eq h
  · rfl
  · have hbare : ∀ found : List Issue, found.map (fun i => { i with place := [] }) =
        (found.map (·.fault)).map fun f => (⟨f, []⟩ : Issue) := by
      intro found
      rw [List.map_map]
      rfl
    show Except.error (Error.invalid ⟨m, found.map _⟩) = .error (.invalid ⟨m, found'.map _⟩)
    rw [hbare, hbare, hsame]

namespace Selection

open Report

/-- The filter of a selection is read alike in uniform spelling. -/
theorem readFilters_uniformSelection (strict : Bool) {es : Entries}
    (hone : oneSpellingChildren (filtersOf es) = true) :
    (readFilters strict (uniformSelection es)).result = (readFilters strict es).result := by
  have hlookup : lookup "filters" (uniformSelection es) =
      (lookup "filters" es).map uniformChildren :=
    lookup_respell (becomes_self es (by decide)) fun _ _ hk => if_pos hk
  rw [readFilters, hlookup, readFilters]
  cases hfilters : lookup "filters" es with
  | none => rfl
  | some v =>
    rw [filtersOf, hfilters] at hone
    -- only a list or a tuple is read item by item
    cases v with
    | list xs =>
      have hitems := Node.readAll_uniformItems strict Node.rootPath 0 xs hone
      show Except.map _ (Except.mapError _ _) = Except.map _ (Except.mapError _ _)
      rw [hitems]
    | tuple xs =>
      have hitems := Node.readAll_uniformItems strict Node.rootPath 0 xs hone
      show Except.map _ (Except.mapError _ _) = Except.map _ (Except.mapError _ _)
      rw [hitems]
    | _ => rfl

/-- **A raw selection is read alike** in uniform spelling. -/
theorem read_uniformSelection (strict : Bool) {es : Entries} (hone : hasOneSpelling es = true) :
    (read strict (.map (uniformSelection es))).result.mapError Error.unplaced =
      (read strict (.map es)).result.mapError Error.unplaced := by
  rw [hasOneSpelling, Bool.and_eq_true] at hone
  have hfilters := readFilters_uniformSelection strict hone.2
  refine mapError_result_bind_eq (congrArg _ hfilters) fun filters => ?_
  exact Checked.unplaced_toExcept (faults_checkWith_uniformSelection filters hone.1)

end Selection

namespace Compiler

variable (c : Compiler) (k : Compilation)

/-- A raw selection is compiled alike in uniform spelling. -/
theorem selectRaw_uniformSelection {es : Entries} (hone : hasOneSpelling es = true) :
    (c.selectRaw k (.map (uniformSelection es))).result.mapError Error.unplaced =
      (c.selectRaw k (.map es)).result.mapError Error.unplaced :=
  Report.mapError_result_bind_eq rfl fun _ =>
    Report.mapError_result_bind_eq (Selection.read_uniformSelection c.strict hone) fun _ => rfl

/-- **Letter case and spelling do not change a compilation.** Two raw selections that are the same
in uniform spelling, each with one spelling of every key, are compiled to the same clauses, values,
limit and offset, or to errors that differ at most in the places of issues. -/
theorem selectRaw_eq_of_uniform_eq {es es' : Entries} (hone : hasOneSpelling es = true)
    (hone' : hasOneSpelling es' = true) (h : uniformSelection es = uniformSelection es') :
    (c.selectRaw k (.map es)).result.mapError Error.unplaced =
      (c.selectRaw k (.map es')).result.mapError Error.unplaced := by
  rw [← selectRaw_uniformSelection c k hone, ← selectRaw_uniformSelection c k hone', h]

/-- Raw data with a leaf, a group joined to it, an order and a free text, and the spelling of its
words and keys as given. -/
def petsSpelt (operator joiner order joinerKey textKey : String) : Entries :=
  let leaf (field : String) : Entries :=
    [(.text "field", .text field), (.text "operator", .text operator), (.text "value", .int 3)]
  let group : Entries :=
    [(.text "expressions", .list [.map (leaf "weight")]), (.text joinerKey, .text joiner)]
  let sort : Entries := [(.text "key", .text "name"), (.text "order", .text order)]
  [(.text "filters", .list [.map (leaf "age"), .map group]), (.text "sort", .map sort),
    (.text textKey, .text "Rex")]

/-- Capitals and joined words against small letters and underscores. -/
theorem selectRaw_eq_of_uniform_eq_of_pets :
    let c : Compiler := { strict := true }
    let k : Compilation := { textFields := ["name"] }
    let loud := petsSpelt "GtE" "OR" "DESC" "conditionType" "freeText"
    let quiet := petsSpelt "gte" "or" "desc" "condition_type" "free_text"
    hasOneSpelling loud = true ∧ hasOneSpelling quiet = true ∧
      uniformSelection loud = uniformSelection quiet ∧
      (c.selectRaw k (.map loud)).result.mapError Error.unplaced =
        (c.selectRaw k (.map quiet)).result.mapError Error.unplaced := by
  intro c k loud quiet
  have hloud : hasOneSpelling loud = true := by
    decide
  have hquiet : hasOneSpelling quiet = true := by
    decide
  -- the quiet data is its own uniform spelling
  have hsame : uniformSelection loud = uniformSelection quiet :=
    calc uniformSelection loud
      _ = quiet := by rfl
      _ = uniformSelection quiet := by rfl
  exact ⟨hloud, hquiet, hsame, selectRaw_eq_of_uniform_eq c k hloud hquiet hsame⟩

end Compiler

end BoundSql
