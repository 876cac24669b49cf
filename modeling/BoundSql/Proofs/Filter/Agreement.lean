import BoundSql.Filter.Read
import BoundSql.Proofs.Filter.Checked
import BoundSql.Proofs.Report

/-!
# The reader and the models

Raw nodes are read in one of two ways: node by node by `Node.readOne`, which tells groups from
leaves by their children, or as a whole by `Node.check`, which tries every node as a leaf and then
as a group. On data as it comes from JSON the strict reader and the check let the same nodes
through, and build the same tree of them.

* `Node.unknownKeys_ne_nil_of_children` — what has children never passes as a leaf, so that there is
  only one way left to try;
* `Node.readOne_agrees`, `Node.readAll_agrees` — nodes and siblings, at any depth, by recursion over
  the data.
-/

namespace BoundSql

namespace Value

mutual

/-- Whether a value is as it comes from JSON: built of lists and of mappings with texts as keys from
numbers, texts, truth values and nothing. -/
def IsJson : Value → Prop
  | null | bool _ | int _ | float _ | text _ => True
  | list xs => AllJson xs
  | map es => EntriesJson es
  | _ => False

/-- Whether all items are as they come from JSON. -/
def AllJson : List Value → Prop
  | [] => True
  | x :: xs => x.IsJson ∧ AllJson xs

/-- Whether all entries are as they come from JSON. -/
def EntriesJson : Entries → Prop
  | [] => True
  | (k, v) :: rest => (∃ s, k = text s) ∧ v.IsJson ∧ EntriesJson rest

end

theorem isJson_of_lookup {es : Entries} (h : EntriesJson es) {name : String} {v : Value}
    (hv : lookup name es = some v) : v.IsJson := by
  induction es with
  | nil => cases hv
  | cons e es ih =>
    obtain ⟨-, he, hes⟩ := h
    rw [lookup] at hv
    split at hv
    · obtain rfl := Option.some.inj hv
      exact he
    · exact ih hes hv

end Value

open Value

/-! ### Agreement -/

/-- **A reader and a check agree**: they let the same value through, or nothing. -/
def Report.Agrees {ε α : Type} (r : Report ε α) (c : Checked α) : Prop :=
  ∀ a, r.result = .ok a ↔ c = .ok a

namespace Report.Agrees

variable {ε δ α β : Type} {r : Report ε α} {c : Checked α}

theorem ok (a : α) : (Report.ok a : Report ε α).Agrees (.ok a) := by
  intro b
  constructor
  · intro h
    exact congrArg Checked.ok (Except.ok.inj h)
  · intro h
    exact congrArg Except.ok (Checked.ok.inj h)

/-- Neither lets anything through. -/
theorem of_rejected {e : ε} {found : List Issue} (hr : r.result = .error e)
    (hc : c = .issues found) : r.Agrees c := by
  intro a
  rw [hr, hc]
  exact Iff.intro (fun h => nomatch h) fun h => nomatch h

theorem map (h : r.Agrees c) (f : α → β) : (r.map f).Agrees (c.map f) := by
  intro b
  rw [Report.result_map_eq_ok, Checked.map_eq_ok]
  exact exists_congr fun a => and_congr_left fun _ => h a

theorem below (h : r.Agrees c) (s : Step) : r.Agrees (c.below s) := by
  intro a
  rw [Checked.below_eq_ok]
  exact h a

theorem mapError (h : r.Agrees c) (f : ε → δ) : (r.mapError f).Agrees c := by
  intro a
  rw [Report.result_mapError_eq_ok]
  exact h a

/-- Where the check finds something, the reader fails. -/
theorem error_of_issues (h : r.Agrees c) {found : List Issue} (hc : c = .issues found) :
    ∃ e, r.result = .error e := by
  cases hr : r.result with
  | error e => exact ⟨e, rfl⟩
  | ok a =>
    rw [(h a).mp hr] at hc
    cases hc

end Report.Agrees

namespace Node

/-- The outcome of a check, taken over by the reader. -/
theorem checked_agrees (m : Model) (path : String) (c : Checked Node) :
    (Report.ofExcept (checked m path c)).Agrees c := by
  cases c with
  | ok n => exact .ok n
  | issues found => exact .of_rejected rfl rfl

/-! ### Leaves and groups -/

/-- Children are an unknown key for anything that knows no children. -/
theorem unknownKeys_ne_nil_of_children {known : List String}
    (hknown : known.contains "expressions" = false) {es : Entries} {c : Checked (List Node)}
    (h : checkChildren es = some c) : Check.unknownKeys known es ≠ [] := by
  induction es with
  | nil => cases h
  | cons e es ih =>
    obtain ⟨k, v⟩ := e
    rw [checkChildren] at h
    rw [Check.unknownKeys]
    intro hnil
    obtain ⟨hhere, hrest⟩ := List.append_eq_nil_iff.mp hnil
    split at h
    · -- the children stand here, under a key that is not known
      rename_i hkey
      have htext : k.asText? = some "expressions" := by simpa [Value.isKey] using hkey
      rw [htext] at hhere
      simp only [hknown] at hhere
      cases hhere
    · exact ih h hrest

/-- **What has children never passes as a leaf.** -/
theorem leaf_issues_of_children {es : Entries} {c : Checked (List Node)}
    (h : checkChildren es = some c) : ∃ found, Leaf.check es = .issues found := by
  cases hleaf : Leaf.check es with
  | issues found => exact ⟨found, rfl⟩
  | ok l =>
    -- none of the keys of a leaf is that of the children, in either spelling of the joiner
    have hknown : ["field", "operator", "value",
        Check.spelling "conditionType" "condition_type" es].contains "expressions" = false := by
      unfold Check.spelling
      split
      · decide
      · decide
    have hkeys := (Check.closed_eq_ok.mp hleaf).1
    exact absurd hkeys (unknownKeys_ne_nil_of_children hknown h)

/-- A group without children does not pass. -/
theorem checkGroup_none (es : Entries) : ∃ found, checkGroup none es = .issues found := by
  cases hgroup : checkGroup none es with
  | issues found => exact ⟨found, rfl⟩
  | ok n =>
    -- what passes has passed children, and there are none
    obtain ⟨-, hfields⟩ := Check.closed_eq_ok.mp hgroup
    obtain ⟨children, -, hchildren, -⟩ := Checked.zipWith_eq_ok.mp hfields
    cases hchildren

/-- A group passes if its children do, and then as a group of these. -/
theorem checkGroup_some_eq_ok {c : Checked (List Node)} {es : Entries} {n : Node} :
    checkGroup (some c) es = .ok n ↔
      ∃ children, c = .ok children ∧ checkGroup (some (.ok children)) es = .ok n := by
  cases c with
  | ok children => simp
  | issues found =>
    -- issues of the children are issues of the group
    constructor
    · intro h
      obtain ⟨-, hfields⟩ := Check.closed_eq_ok.mp h
      obtain ⟨children, -, hchildren, -⟩ := Checked.zipWith_eq_ok.mp hfields
      cases hchildren
    · rintro ⟨children, hchildren, -⟩
      cases hchildren

/-- The reader of a node without children agrees with the check of it, which fails as a group. -/
theorem leaf_agrees (path : String) (es : Entries) :
    (Report.ofExcept (checked .leaf path ((Leaf.check es).map leaf))).Agrees
      (either (Leaf.check es) (checkGroup none es)) := by
  obtain ⟨found, hgroup⟩ := checkGroup_none es
  rw [hgroup]
  cases hleaf : Leaf.check es with
  | ok l => exact checked_agrees .leaf path (.ok (.leaf l))
  | issues found => exact .of_rejected rfl rfl

/-- The reader of a node with children agrees with the check of it, which fails as a leaf. -/
theorem group_agrees (path : String) {es : Entries} {r : Report Malformed (List Node)}
    {c : Checked (List Node)} (h : r.Agrees c) (hchildren : checkChildren es = some c) :
    (r.bind fun children => .ofExcept (checked .group path
      (checkGroup (some (.ok children)) es))).Agrees
      (either (Leaf.check es) (checkGroup (some c) es)) := by
  obtain ⟨found, hleaf⟩ := leaf_issues_of_children hchildren
  rw [hleaf]
  -- the check has only the group left to try
  have hgroup : ∀ n, either (.issues found) (checkGroup (some c) es) = .ok n ↔
      checkGroup (some c) es = .ok n := by
    intro n
    cases checkGroup (some c) es with
    | ok m => exact Iff.rfl
    | issues more => exact Iff.intro (fun h => nomatch h) fun h => nomatch h
  intro n
  rw [Report.result_bind_eq_ok, hgroup, checkGroup_some_eq_ok]
  refine exists_congr fun children => and_congr (h children) ?_
  exact checked_agrees .group path _ n

/-! ### Siblings -/

/-- A strict reader keeps what it reads. -/
theorem keepOrDrop_eq_ok {path : String} {item : Value} {r : Report Malformed Node}
    {kept : Option Node} :
    (keepOrDrop true path item r).result = .ok kept ↔ ∃ n, r.result = .ok n ∧ some n = kept := by
  unfold keepOrDrop
  cases r.result with
  | ok n => simp
  | error e => simp

mutual

/-- A raw node is read as it passes the models. -/
theorem readOne_agrees (path : String) {v : Value} (h : v.IsJson) :
    (readOne true path v).Agrees (check v) := by
  cases v with
  | map es =>
    have hchildren := readChildren_agrees path h
    rw [readOne, check]
    -- reader and check look for the children in the same way, and find them or not together
    generalize readChildren true path es = read at hchildren ⊢
    generalize hchecked : checkChildren es = checked at hchildren ⊢
    cases hchildren with
    | none => exact leaf_agrees path es
    | some hchildren => exact group_agrees path hchildren hchecked
  | record type fields => exact h.elim
  | _ => exact .of_rejected rfl rfl

theorem readChildren_agrees (path : String) {es : Entries} (h : EntriesJson es) :
    Option.Rel Report.Agrees (readChildren true path es) (checkChildren es) := by
  cases es with
  | nil => exact .none
  | cons e rest =>
    obtain ⟨-, hv, hrest⟩ := h
    rw [readChildren, checkChildren]
    split
    · exact .some (readList_agrees path hv)
    · exact readChildren_agrees path hrest

theorem readList_agrees (path : String) {v : Value} (h : v.IsJson) :
    (readList true path v).Agrees (checkList v) := by
  cases v with
  | list xs => exact readAll_agrees (path ++ ".expressions") 0 0 h
  | tuple xs => exact h.elim
  | set xs => exact h.elim
  | frozenset xs => exact h.elim
  | _ => exact .of_rejected rfl rfl

/-- **Siblings are read as they pass the models**, wherever they stand. -/
theorem readAll_agrees (path : String) (index place : Nat) {xs : List Value} (h : AllJson xs) :
    (readAll true path index xs).Agrees (checkAll place xs) := by
  cases xs with
  | nil => exact .ok []
  | cons x xs =>
    obtain ⟨hx, hxs⟩ := h
    have hone := readOne_agrees (itemPath path index) hx
    have hrest := readAll_agrees path (index + 1) (place + 1) hxs
    intro ns
    rw [readAll, checkAll, Report.result_bind_eq_ok, Checked.zipWith_eq_ok]
    -- a strict reader drops nothing, so what it reads is one node for every item
    constructor
    · rintro ⟨kept, hkept, hall⟩
      obtain ⟨n, hn, rfl⟩ := keepOrDrop_eq_ok.mp hkept
      obtain ⟨behind, hbehind, rfl⟩ := Report.result_map_eq_ok.mp hall
      exact ⟨n, behind, (hone.below _ n).mp hn, (hrest behind).mp hbehind, rfl⟩
    · rintro ⟨n, behind, hn, hbehind, rfl⟩
      refine ⟨some n, keepOrDrop_eq_ok.mpr ⟨n, (hone.below _ n).mpr hn, rfl⟩, ?_⟩
      exact Report.result_map_eq_ok.mpr ⟨behind, (hrest behind).mpr hbehind, rfl⟩

end

end Node

end BoundSql
