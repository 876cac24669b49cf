import BoundSql.Insert.Stored
import BoundSql.Proofs.Value.Elements

/-!
# Structures bound as JSON

A structure is bound as JSON text, unless it is a collection for an array column. A text is always
found for a structure that is built of leaves that have one, as long as its mappings have texts for
their keys.

* `Value.stored_eq_json` — where a structure is bound as JSON text;
* `Value.IsDatum` — the leaves that JSON has a form for;
* `Value.BuiltOf` — structures built of leaves to any depth;
* `Value.BuiltOf.exists_json` — they have a JSON text.
-/

namespace BoundSql.Value

/-- A structure is bound by way of its column. -/
theorem stored_structure {v : Value} (h : v.isStructure = true) (arrays : List String)
    (column : String) : v.stored arrays column = storedText (arrays.contains column) v := by
  cases v <;> first | rfl | cases h

/-- An array literal is bound for a collection in a column of arrays only. -/
theorem not_literal {v : Value} {arrays : List String} {column : String}
    (hbranch : column ∉ arrays ∨ v.collected? = none) (hcolumn : column ∈ arrays)
    {items : List Value} : v.collected? ≠ some items := by
  intro hitems
  rcases hbranch with hnot | hnone
  · exact hnot hcolumn
  · rw [hnone] at hitems
    cases hitems

/-- **A structure is bound as JSON text** if its column is none of arrays or it is no collection. -/
theorem stored_eq_json {v : Value} (h : v.isStructure = true) {arrays : List String}
    {column : String} (hbranch : column ∉ arrays ∨ v.collected? = none) :
    v.stored arrays column = v.json.map text := by
  rw [stored_structure h, storedText]
  exact fun items hcontains => not_literal hbranch (List.contains_iff_mem.mp hcontains)

/-- **A leaf that JSON has a form for**: nothing, a truth value, a whole number or a text. -/
inductive IsDatum : Value → Prop where
  | null : IsDatum null
  | bool (b : Bool) : IsDatum (bool b)
  | int (n : Int) : IsDatum (int n)
  | text (s : String) : IsDatum (text s)

/-- **Built of leaves**, to any depth: a leaf, a collection of such values, or a mapping from texts
to such values. -/
inductive BuiltOf (Leaf : Value → Prop) : Value → Prop where
  | leaf {v : Value} (hleaf : v.isStructure = false) (h : Leaf v) : BuiltOf Leaf v
  | list {xs : List Value} (h : ∀ x ∈ xs, BuiltOf Leaf x) : BuiltOf Leaf (list xs)
  | tuple {xs : List Value} (h : ∀ x ∈ xs, BuiltOf Leaf x) : BuiltOf Leaf (tuple xs)
  | set {xs : List Value} (h : ∀ x ∈ xs, BuiltOf Leaf x) : BuiltOf Leaf (set xs)
  | frozenset {xs : List Value} (h : ∀ x ∈ xs, BuiltOf Leaf x) : BuiltOf Leaf (frozenset xs)
  | map {es : Entries} (hkeys : ∀ e ∈ es, ∃ s, e.1 = text s) (h : ∀ e ∈ es, BuiltOf Leaf e.2) :
    BuiltOf Leaf (map es)

section BuiltOf

variable {Leaf : Value → Prop} {v : Value}

/-- What is built of leaves has only these within it. -/
theorem BuiltOf.atLeaves (h : v.BuiltOf Leaf) : v.AtLeaves Leaf := by
  induction h with
  | leaf hleaf h => exact (atLeaves_of_leaf hleaf).mpr h
  | list _ ih | tuple _ ih | set _ ih | frozenset _ ih => exact (atLeaves_of_structure rfl).mpr ih
  | map _ _ ih => exact (atLeaves_of_structure rfl).mpr (List.forall_mem_map.mpr ih)

/-- **What is built of leaves with a text has a text.** -/
theorem BuiltOf.exists_json (h : v.BuiltOf Leaf) (hleaf : ∀ x, Leaf x → ∃ s, x.json = .ok s) :
    ∃ s, v.json = .ok s := by
  have hitems {xs : List Value} (hxs : ∀ x ∈ xs, ∃ s, x.json = .ok s) :
      ∃ items, jsonItemsWith json xs = .ok items := by
    obtain ⟨items, hwritten⟩ := exists_forall₂ hxs
    exact ⟨items, jsonItemsWith_eq_ok_iff.mpr
      (hwritten.imp fun x s hs => (jsonWith_json x).trans hs)⟩
  induction h with
  | leaf _ h => exact hleaf _ h
  | list _ ih | tuple _ ih | set _ ih | frozenset _ ih =>
    obtain ⟨items, hwritten⟩ := hitems ih
    exact ⟨_, (jsonWith_json _).symm.trans (congrArg (Except.map _) hwritten)⟩
  | @map es hkeys _ ih =>
    -- every key is a text, so each entry can be written
    have hmembers : ∀ e ∈ es, ∃ m, WritesMember json e m := by
      intro e he
      obtain ⟨key, hkey⟩ := hkeys e he
      obtain ⟨s, hs⟩ := ih e he
      exact ⟨_, key, s, by rw [hkey]; rfl, (jsonWith_json e.2).trans hs, rfl⟩
    obtain ⟨members, hwritten⟩ := exists_forall₂ hmembers
    exact ⟨_, (jsonWith_json _).symm.trans
      (congrArg (Except.map _) (jsonMembersWith_eq_ok_iff.mpr hwritten))⟩

end BuiltOf

end BoundSql.Value
