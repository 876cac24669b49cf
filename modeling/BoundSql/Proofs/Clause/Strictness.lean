import BoundSql.Proofs.Clause.Compiled
import BoundSql.Proofs.Filter.Checked
import BoundSql.Proofs.Filter.Strictness

/-!
# Strict and lenient compiling

A lenient compiler drops malformed nodes while it reads and leaves with unknown operators while it
renders; a strict one stops at either. What they compile is the same wherever the lenient one leaves
no notice.

* `Clause.Settings.run_tightens` — the pass over the tokens, from the step for one token;
* `Node.leaves_readAll` — what a strict reader reads has every comparison that was asked for;
* `Compiler.strict_iff_quiet` — compiling as a whole, from a checked selection or from raw data.
-/

namespace BoundSql

open Report

namespace Clause.Settings

/-- The strict settings for the same clause. -/
def strictly (s : Settings) : Settings := { s with strict := true }

/-- The lenient settings for the same clause. -/
def leniently (s : Settings) : Settings := { s with strict := false }

/-- Only a comparison with an unknown operator is treated differently: it is an error for strict
settings, and nothing for lenient ones. -/
theorem comparison_strictly (s : Settings) (bound : Nat) (c : Comparison) :
    (s.strictly.comparison bound c = .error (.unknown c.operator c.field) ∧
      s.leniently.comparison bound c = .ok none) ∨
    (s.strictly.comparison bound c = s.leniently.comparison bound c ∧
      s.leniently.comparison bound c ≠ .ok none) := by
  rw [Compiler.comparison_eq_match, Compiler.comparison_eq_match]
  -- strictness is asked for only where the operator has no form
  cases Operator.formOf? c.operator with
  | none => exact .inl ⟨rfl, rfl⟩
  | some form =>
    refine .inr ⟨by cases form <;> rfl, ?_⟩
    cases form with
    | symbol sign => simp
    | membership negate =>
      show (if s.dialect.hasMembership then _ else _) ≠ _
      split <;> simp
    | pattern => simp

/-- **One step of the pass.** -/
theorem step_tightens (s : Settings) (st : State) (t : Token) :
    (s.strictly.step st t).Tightens (s.leniently.step st t) := by
  cases t with
  | joiner j => exact .ok _
  | opening => exact .ok _
  | closing =>
    -- a closing mark is the same step in both modes, and leaves no notice
    have hsame : s.strictly.step st .closing = s.leniently.step st .closing := rfl
    rw [hsame]
    refine .of_no_notices ?_
    unfold step
    cases st.groups <;> rfl
  | comparison c =>
    rw [step, step]
    rcases s.comparison_strictly st.values.length c with ⟨hstrict, hlenient⟩ | ⟨hsame, hkept⟩
    · -- the leaf is dropped with a notice where the strict pass stops
      rw [hstrict, hlenient]
      exact ⟨fun st' => by simp [Report.fail], fun n hn => by
        rw [List.mem_singleton.mp hn]
        trivial⟩
    · rw [hsame]
      refine .of_no_notices ?_
      cases hcomparison : s.leniently.comparison st.values.length c with
      | error e => rfl
      | ok text =>
        cases text with
        | none => exact absurd hcomparison hkept
        | some text => rfl

/-- **The whole pass.** -/
theorem run_tightens (s : Settings) (st : State) (ts : List Token) :
    (s.strictly.run st ts).Tightens (s.leniently.run st ts) := by
  induction ts generalizing st with
  | nil => exact .ok st
  | cons t ts ih => exact (s.step_tightens st t).bind ih

end Clause.Settings

/-! ### What raw data asks for -/

namespace Node

mutual

/-- How many comparisons a raw node asks for; whatever is no group counts as one. -/
def asked : Value → Nat
  | .map es => (askedInGroup es).getD 1
  | v => ((ofValue? v).map fun n => n.leaves.length).getD 1

/-- How many comparisons the entries of a raw node ask for, if it is a group. -/
def askedInGroup : Entries → Option Nat
  | [] => none
  | (k, v) :: rest => if k.isKey "expressions" then some (askedInList v) else askedInGroup rest

/-- How many comparisons the children of a raw group ask for. -/
def askedInList : Value → Nat
  | .list xs | .tuple xs => askedInAll xs
  | _ => 0

/-- How many comparisons raw siblings ask for. -/
def askedInAll : List Value → Nat
  | [] => 0
  | x :: xs => asked x + askedInAll xs

end

theorem checked_eq_ok {m : Model} {path : String} {c : Checked Node} {n : Node}
    (h : checked m path c = .ok n) : c = .ok n := by
  cases c with
  | ok a =>
    cases h
    rfl
  | issues found => cases h

mutual

/-- A node that a strict reader reads has all the comparisons that were asked for. -/
theorem leaves_readOne {path : String} {v : Value} {n : Node}
    (h : (readOne true path v).result = .ok n) : n.leaves.length = asked v := by
  cases v with
  | map es =>
    -- the entries are a group if they have children, and else one leaf
    rw [readOne] at h
    rw [asked]
    have hchildren := leaves_readChildren path es
    generalize readChildren true path es = read at h hchildren
    generalize askedInGroup es = count at hchildren ⊢
    cases hchildren with
    | none =>
      obtain ⟨l, -, rfl⟩ := Checked.map_eq_ok.mp (checked_eq_ok h)
      rfl
    | some hchildren =>
      obtain ⟨children, hread, hgroup⟩ := result_bind_eq_ok.mp h
      obtain ⟨-, j, -, rfl⟩ := checkGroup_eq_ok.mp (checked_eq_ok hgroup)
      exact hchildren children hread
  | record type fields =>
    -- a node that is built already is taken as it is
    have hbuilt : ofValue? (.record type fields) = some n := by
      rw [readOne] at h
      · cases hof : ofValue? (.record type fields) with
        | none =>
          rw [hof] at h
          cases h
        | some n' =>
          rw [hof] at h
          cases h
          rfl
      · exact fun es h => nomatch h
    rw [asked, hbuilt]
    · rfl
    · exact fun es h => nomatch h
  | _ => cases h

theorem leaves_readChildren (path : String) (es : Entries) :
    Option.Rel (fun r count => ∀ ns, r.result = .ok ns → (leavesOf ns).length = count)
      (readChildren true path es) (askedInGroup es) := by
  cases es with
  | nil => exact .none
  | cons e rest =>
    rw [readChildren, askedInGroup]
    split
    · exact .some fun ns => leaves_readList
    · exact leaves_readChildren path rest

theorem leaves_readList {path : String} {v : Value} {ns : List Node}
    (h : (readList true path v).result = .ok ns) : (leavesOf ns).length = askedInList v := by
  cases v with
  | list xs => exact leaves_readAll h
  | tuple xs => exact leaves_readAll h
  | _ => cases h

theorem leaves_readAll {path : String} {index : Nat} {xs : List Value} {ns : List Node}
    (h : (readAll true path index xs).result = .ok ns) : (leavesOf ns).length = askedInAll xs := by
  cases xs with
  | nil =>
    cases h
    rfl
  | cons x xs =>
    rw [readAll] at h
    obtain ⟨kept, hkept, hrest⟩ := result_bind_eq_ok.mp h
    obtain ⟨rest, hread, hns⟩ := result_map_eq_ok.mp hrest
    cases hone : (readOne true (itemPath path index) x).result with
    | error e =>
      -- a strict reader stops here, so no sibling is missing from what it reads
      rw [keepOrDrop, hone] at hkept
      cases hkept
    | ok n =>
      rw [keepOrDrop, hone] at hkept
      cases hkept
      subst hns
      show (n.leaves ++ leavesOf rest).length = _
      rw [List.length_append, leaves_readOne hone, leaves_readAll hread, askedInAll]
end

end Node

namespace Selection

/-- How many comparisons raw data asks for, the search for a free text apart. -/
def asked (v : Value) : Nat :=
  match ofValue? v with
  | some s => (Node.leavesOf s.nodes).length
  | none =>
    match v.toEntries with
    | .ok es => (((Value.lookup "filters" es).bind Value.items?).map Node.askedInAll).getD 0
    | .error _ => 0

theorem leaves_readFilters {es : Entries} {filters : Option (List Node)}
    (h : (readFilters true es).result = .ok filters) :
    (Node.leavesOf (filters.getD [])).length =
      (((Value.lookup "filters" es).bind Value.items?).map Node.askedInAll).getD 0 := by
  -- no filter, a null and one that can be read, in turn
  cases hlookup : Value.lookup "filters" es with
  | none =>
    rw [Compiler.readFilters_of_no_filter true (.inl hlookup)] at h
    cases h
    rfl
  | some v =>
    by_cases hnull : v = .null
    · subst hnull
      rw [Compiler.readFilters_of_no_filter true (.inr hlookup)] at h
      cases h
      rfl
    · rw [Compiler.readFilters_of_filter true hlookup hnull] at h
      obtain ⟨ns, hns, rfl⟩ := result_map_eq_ok.mp h
      cases hitems : v.items? with
      | none =>
        rw [Node.readItems, hitems] at hns
        cases hns
      | some xs =>
        rw [Node.readItems, hitems] at hns
        have hread := result_mapError_eq_ok.mp hns
        simpa [hitems] using Node.leaves_readAll hread

/-- A selection that a strict reader reads has all the comparisons that were asked for. -/
theorem leaves_read {v : Value} {s : Selection} (h : (read true v).result = .ok s) :
    (Node.leavesOf s.nodes).length = asked v := by
  unfold asked
  rcases Compiler.built_or_checked_of_read h with
    hbuilt | ⟨hraw, es, filters, hes, hfilters, hcheck⟩
  · rw [hbuilt]
  · -- the nodes of the selection are those read, as the other fields are checked apart
    have hnodes : s.filters = filters := (checkWith_eq_ok.mp hcheck).2.1
    rw [hraw, nodes, hnodes]
    simp only [hes]
    exact leaves_readFilters hfilters

/-- A search comes behind the nodes of the filter. -/
theorem exists_append_of_effectiveNodes {s : Selection} {fields : List String} {ns : List Node}
    (h : s.effectiveNodes fields = .ok ns) : ∃ search, ns = s.nodes ++ search := by
  unfold effectiveNodes at h
  -- no text to search for, no fields to search in, or a search
  split at h
  · cases h
    exact ⟨[], (List.append_nil _).symm⟩
  · cases h
    exact ⟨[], (List.append_nil _).symm⟩
  · rename_i text field fields _
    -- what is searched for is put behind the nodes, if its fields have names
    cases hleaves : searchLeaves text true (field :: fields) with
    | error e =>
      rw [hleaves] at h
      cases h
    | ok leaves =>
      rw [hleaves] at h
      cases h
      exact ⟨_, rfl⟩

end Selection

/-! ### Compiling -/

/-- The strict reader of selections and the lenient one. -/
theorem Selection.read_tightens (v : Value) :
    (read true v).Tightens (read false v) := by
  -- only the filters are read in a mode
  have hfilters : ∀ es, (readFilters true es).Tightens (readFilters false es) := by
    intro es
    unfold readFilters
    split
    · exact .ok none
    · exact .ok none
    · exact (Node.readItems_tightens _ _).map _
  unfold read
  cases ofValue? v with
  | some s => exact .ok s
  | none => exact (Tightens.ofExcept _).bind fun es => (hfilters es).bind fun _ => .ofExcept _

namespace Compiler

/-- The compiler that stops at the first node or operator it cannot use. -/
def strictly (c : Compiler) : Compiler := { c with strict := true }

/-- The compiler that drops the nodes and operators it cannot use. -/
def leniently (c : Compiler) : Compiler := { c with strict := false }

variable (c : Compiler) (k : Compilation)

theorem assemble_tightens (s : Selection) :
    (c.strictly.assemble k s).Tightens (c.leniently.assemble k s) := by
  refine (Tightens.ofExcept _).bind fun nodes => Tightens.map ?_ _
  have hrun := (c.settings k.offset).run_tightens .start (Node.flatten c.aliases nodes)
  exact (hrun.map _).mapError _

theorem select_tightens (s : Selection) :
    (c.strictly.select k s).Tightens (c.leniently.select k s) :=
  (Tightens.ofExcept _).bind fun _ => c.assemble_tightens k s

theorem selectRaw_tightens (v : Value) :
    (c.strictly.selectRaw k v).Tightens (c.leniently.selectRaw k v) :=
  (Tightens.ofExcept _).bind fun _ => (Selection.read_tightens v).bind (c.assemble_tightens k)

/-- What a strict compiler goes through has no leaf to drop. -/
theorem kept_of_survey (hstrict : c.strict = true) {ls : List Leaf} {u : Unit}
    (h : (c.survey ls).result = .ok u) : (ls.filterMap Leaf.kept?).map (·.1) = ls := by
  induction ls with
  | nil => rfl
  | cons l ls ih =>
    obtain ⟨u, hl, hls⟩ := result_bind_eq_ok.mp h
    cases hform : l.form? with
    | none =>
      -- a strict compiler refuses what it would have to drop
      rw [verdict, hform, hstrict] at hl
      cases hl
    | some f =>
      have hkept : l.kept? = some (l, f) := by rw [Leaf.kept?, hform]; rfl
      rw [List.filterMap_cons_some hkept, List.map_cons, ih hls]

/-- A strict compiler binds a value for every leaf. -/
theorem length_values_of_select (hstrict : c.strict = true) {s : Selection} {r : Compiled}
    (h : (c.select k s).result = .ok r) : (Node.leavesOf s.nodes).length ≤ r.values.length := by
  obtain ⟨bound, ns, -, hns, hrenders⟩ := select_renders h
  obtain ⟨u, hsurvey⟩ := survey_of_select h hns
  obtain ⟨search, rfl⟩ := Selection.exists_append_of_effectiveNodes hns
  -- nothing of the filter is dropped, and a search only adds values
  have hkept := congrArg List.length (c.kept_of_survey hstrict hsurvey)
  calc
    (Node.leavesOf s.nodes).length ≤ (Node.leavesOf (s.nodes ++ search)).length := by
      rw [Node.leavesOf_append, List.length_append]
      exact Nat.le_add_right _ _
    _ = r.values.length := by
      rw [hrenders.values, Node.length_values, ← hkept, List.length_map]
      rfl

/-- A strict compiler binds a value for every comparison that raw data asks for. -/
theorem length_values_of_selectRaw (hstrict : c.strict = true) {v : Value} {r : Compiled}
    (h : (c.selectRaw k v).result = .ok r) : Selection.asked v ≤ r.values.length := by
  obtain ⟨s, hs, hselect⟩ := c.select_of_selectRaw h
  rw [hstrict] at hs
  rw [← Selection.leaves_read hs]
  exact c.length_values_of_select k hstrict hselect

/-- **Strict and lenient compiling differ where something is dropped, and only there.** For checked
selections and for raw data of any kind:

* a strict compiler has a result exactly if the lenient one has the same and leaves no notice;
* where the strict one stops, the lenient one stops too or names a node or a leaf it dropped;
* a lenient one that leaves no notice binds a value for every comparison that was asked for.
-/
theorem strict_iff_quiet (c : Compiler) (k : Compilation) :
    (∀ s r, (c.strictly.select k s).result = .ok r ↔ c.leniently.select k s = ⟨[], .ok r⟩) ∧
    (∀ v r, (c.strictly.selectRaw k v).result = .ok r ↔
      c.leniently.selectRaw k v = ⟨[], .ok r⟩) ∧
    (∀ s e, (c.strictly.select k s).result = .error e →
      (∃ e', (c.leniently.select k s).result = .error e') ∨
        ∃ n ∈ (c.leniently.select k s).notices, n.IsDrop ∧ n.severity = .warning) ∧
    (∀ v e, (c.strictly.selectRaw k v).result = .error e →
      (∃ e', (c.leniently.selectRaw k v).result = .error e') ∨
        ∃ n ∈ (c.leniently.selectRaw k v).notices, n.IsDrop ∧ n.severity = .warning) ∧
    (∀ s r, c.leniently.select k s = ⟨[], .ok r⟩ →
      (Node.leavesOf s.nodes).length ≤ r.values.length) ∧
    (∀ v r, c.leniently.selectRaw k v = ⟨[], .ok r⟩ → Selection.asked v ≤ r.values.length) := by
  -- strict compiling tightens lenient compiling; the six parts are read off that
  refine ⟨?_, ?_, ?_, ?_, ?_, ?_⟩
  · intro s r
    exact (c.select_tightens k s).result_iff r
  · intro v r
    exact (c.selectRaw_tightens k v).result_iff r
  · intro s e he
    exact (c.select_tightens k s).error_or_drop he
  · intro v e he
    exact (c.selectRaw_tightens k v).error_or_drop he
  · -- a quiet lenient result is a strict one, and that keeps every comparison
    intro s r hquiet
    have hstrict := ((c.select_tightens k s).result_iff r).mpr hquiet
    exact c.strictly.length_values_of_select k rfl hstrict
  · intro v r hquiet
    have hstrict := ((c.selectRaw_tightens k v).result_iff r).mpr hquiet
    exact c.strictly.length_values_of_selectRaw k rfl hstrict

/-- Raw data with a leaf, something that is no node at all, and a leaf with an unknown operator. -/
def mixedNodes : Value :=
  .map [(.text "filters", .list [
    .map [(.text "field", .text "a"), (.text "operator", .text "eq"), (.text "value", .int 1)],
    .text "b",
    .map [(.text "field", .text "c"), (.text "operator", .text "near")]])]

/-- A compiler with the standard settings. -/
def standard : Compiler := {}

/-- Of data with a node and an operator that cannot be used, both are named. -/
theorem strict_iff_quiet_of_mixedNodes :
    (standard.strictly.selectRaw {} mixedNodes).result =
      .error (Malformed.error ⟨"expected an object, got str", "filters[1]"⟩) ∧
    (standard.leniently.selectRaw {} mixedNodes).notices =
      [.droppedNode "filters[1]" (.text "b"), .droppedLeaf "\"c\"" "near"] ∧
    (standard.leniently.selectRaw {} mixedNodes).result =
      .ok ⟨.int standardLimit, .int 0, "", "WHERE \"a\" = $1", [.int 1]⟩ ∧
    ∃ n ∈ (standard.leniently.selectRaw {} mixedNodes).notices, n.IsDrop ∧
      n.severity = .warning := by
  have hstrict : (standard.strictly.selectRaw {} mixedNodes).result =
      .error (Malformed.error ⟨"expected an object, got str", "filters[1]"⟩) := by
    rfl
  have hlenient : (standard.leniently.selectRaw {} mixedNodes).result =
      .ok ⟨.int standardLimit, .int 0, "", "WHERE \"a\" = $1", [.int 1]⟩ := by
    rfl
  refine ⟨hstrict, by rfl, hlenient, ?_⟩
  obtain ⟨-, -, -, hraw, -⟩ := strict_iff_quiet standard {}
  -- the lenient one has a result, so what is left is that it named something
  rcases hraw mixedNodes _ hstrict with ⟨e, he⟩ | hdrop
  · rw [hlenient] at he
    cases he
  · exact hdrop

end Compiler

end BoundSql
