import BoundSql.Filter.Read
import BoundSql.Proofs.Report

/-!
# Strict and lenient reading

A strict reader stops where a lenient one drops something. So the two agree wherever the lenient one
leaves no notice, and there alone: what is dropped leaves a notice that names it.

* `Report.Tightens` — how a strict report is related to the lenient one of the same data; the
  relation is kept by `bind`, `map` and `mapError`;
* `Node.readAll_tightens` — the reader of siblings, at any depth;
* `Node.readItems_tightens` — the same for whatever can be iterated over.
-/

namespace BoundSql

/-- Whether a notice names a node or a leaf that was dropped. -/
def Notice.IsDrop : Notice → Prop
  | droppedNode _ _ => True
  | droppedLeaf _ _ => True
  | _ => False

theorem Notice.IsDrop.severity_eq {n : Notice} (h : n.IsDrop) : n.severity = .warning := by
  cases n with
  | droppedNode path item => rfl
  | droppedLeaf column operator => rfl
  | _ => exact h.elim

namespace Report

variable {ε δ α β : Type}

/-- **A strict report and the lenient one of the same data.** -/
structure Tightens (strict lenient : Report ε α) : Prop where
  /-- The strict one has the value of the lenient one if that left no notice, and else no value. -/
  result_iff : ∀ a, strict.result = .ok a ↔ lenient = ⟨[], .ok a⟩
  /-- What the lenient one notices is what it drops. -/
  drops : ∀ n ∈ lenient.notices, n.IsDrop

theorem eq_quiet_iff {r : Report ε α} {a : α} :
    r = ⟨[], .ok a⟩ ↔ r.notices = [] ∧ r.result = .ok a := by
  obtain ⟨notices, result⟩ := r
  simp

/-- A chain leaves no notice if none of its parts does. -/
theorem bind_eq_quiet_iff {r : Report ε α} {f : α → Report ε β} {b : β} :
    r.bind f = ⟨[], .ok b⟩ ↔ ∃ a, r = ⟨[], .ok a⟩ ∧ f a = ⟨[], .ok b⟩ := by
  obtain ⟨notices, result⟩ := r
  cases result with
  | error e => simp [bind]
  | ok a => simp [bind, after, eq_quiet_iff, and_assoc]

theorem map_eq_quiet_iff {r : Report ε α} {f : α → β} {b : β} :
    r.map f = ⟨[], .ok b⟩ ↔ ∃ a, r = ⟨[], .ok a⟩ ∧ f a = b := by
  obtain ⟨notices, result⟩ := r
  cases result with
  | error e => simp [map, Except.map]
  | ok a => simp [map, Except.map, and_assoc]

theorem mapError_eq_quiet_iff {r : Report ε α} {f : ε → δ} {a : α} :
    r.mapError f = ⟨[], .ok a⟩ ↔ r = ⟨[], .ok a⟩ := by
  rw [eq_quiet_iff, eq_quiet_iff, result_mapError_eq_ok]
  exact Iff.rfl

namespace Tightens

variable {strict lenient : Report ε α}

/-- What does not depend on strictness leaves no notice. -/
theorem of_no_notices {r : Report ε α} (h : r.notices = []) : r.Tightens r where
  result_iff a := by simp [eq_quiet_iff, h]
  drops n hn := by
    rw [h] at hn
    cases hn

theorem ofExcept (r : Except ε α) : Tightens (ofExcept r) (ofExcept r) := of_no_notices rfl

theorem ok (a : α) : Tightens (ok a : Report ε α) (Report.ok a) := ofExcept (.ok a)

theorem fail (e : ε) : Tightens (fail e : Report ε α) (Report.fail e) := ofExcept (.error e)

theorem bind (h : strict.Tightens lenient) {f g : α → Report ε β}
    (hfg : ∀ a, (f a).Tightens (g a)) : (strict.bind f).Tightens (lenient.bind g) where
  result_iff b := by
    rw [result_bind_eq_ok, bind_eq_quiet_iff]
    exact exists_congr fun a => and_congr (h.result_iff a) ((hfg a).result_iff b)
  drops n hn := by
    -- the notices of the second step come behind those of the first
    cases hlenient : lenient.result with
    | error e =>
      rw [bind_of_error hlenient] at hn
      exact h.drops n hn
    | ok a =>
      rw [bind_of_ok hlenient] at hn
      rcases List.mem_append.mp hn with hearlier | hlater
      · exact h.drops n hearlier
      · exact (hfg a).drops n hlater

theorem map (h : strict.Tightens lenient) (f : α → β) :
    (strict.map f).Tightens (lenient.map f) where
  result_iff b := by
    rw [result_map_eq_ok, map_eq_quiet_iff]
    exact exists_congr fun a => and_congr_left fun _ => h.result_iff a
  drops := h.drops

theorem mapError (h : strict.Tightens lenient) (f : ε → δ) :
    (strict.mapError f).Tightens (lenient.mapError f) where
  result_iff a := by rw [result_mapError_eq_ok, mapError_eq_quiet_iff, h.result_iff]
  drops := h.drops

/-- **Nothing is dropped in silence**: where the strict report is an error, the lenient one is an
error too or names what it dropped. -/
theorem error_or_drop (h : strict.Tightens lenient) {e : ε} (he : strict.result = .error e) :
    (∃ e', lenient.result = .error e') ∨
      ∃ n ∈ lenient.notices, n.IsDrop ∧ n.severity = .warning := by
  cases hresult : lenient.result with
  | error e' => exact .inl ⟨e', rfl⟩
  | ok a =>
    cases hnotices : lenient.notices with
    | nil =>
      -- without a notice the strict report would have the same value
      have hquiet : lenient = ⟨[], .ok a⟩ := eq_quiet_iff.mpr ⟨hnotices, hresult⟩
      have hok := (h.result_iff a).mpr hquiet
      rw [he] at hok
      cases hok
    | cons n notices =>
      have hn : n ∈ lenient.notices := hnotices ▸ List.mem_cons_self
      have hdrop := h.drops n hn
      exact .inr ⟨n, List.mem_cons_self, hdrop, hdrop.severity_eq⟩

end Tightens

end Report

namespace Node

open Report

/-- A node that is dropped leaves a notice. -/
theorem keepOrDrop_tightens (path : String) (item : Value) {strict lenient : Report Malformed Node}
    (h : strict.Tightens lenient) :
    (keepOrDrop true path item strict).Tightens (keepOrDrop false path item lenient) where
  result_iff kept := by
    -- a malformed node has no result for the strict reader, and none without a notice for the other
    have hstrict : (keepOrDrop true path item strict).result = .ok kept ↔
        ∃ n, strict.result = .ok n ∧ some n = kept := by
      unfold keepOrDrop
      cases strict.result with
      | ok n => simp
      | error e => simp
    have hlenient : keepOrDrop false path item lenient = ⟨[], .ok kept⟩ ↔
        ∃ n, lenient = ⟨[], .ok n⟩ ∧ some n = kept := by
      obtain ⟨notices, result⟩ := lenient
      unfold keepOrDrop
      cases result with
      | ok n => simp [and_assoc]
      | error e => simp
    rw [hstrict, hlenient]
    exact exists_congr fun n => and_congr_left fun _ => h.result_iff n
  drops n hn := by
    unfold keepOrDrop at hn
    cases hresult : lenient.result with
    | ok kept =>
      rw [hresult] at hn
      exact h.drops n hn
    | error e =>
      rw [hresult] at hn
      rcases List.mem_append.mp hn with hearlier | hdropped
      · exact h.drops n hearlier
      · rw [List.mem_singleton.mp hdropped]
        trivial

mutual

/-- A node is read alike, once its children are. -/
theorem readOne_tightens (path : String) (v : Value) :
    (readOne true path v).Tightens (readOne false path v) := by
  cases v with
  | map es =>
    -- only reading the children depends on strictness; the checks of the entries do not
    have hchildren := readChildren_tightens path es
    rw [readOne, readOne]
    generalize readChildren true path es = strict at hchildren ⊢
    generalize readChildren false path es = lenient at hchildren ⊢
    cases hchildren with
    | none => exact .ofExcept _
    | some hchildren => exact hchildren.bind fun children => .ofExcept _
  | record type fields =>
    rw [readOne, readOne]
    · cases ofValue? (.record type fields) with
      | none => exact .fail _
      | some n => exact .ok n
    · exact fun es h => nomatch h
    · exact fun es h => nomatch h
  | _ => exact .fail _

theorem readChildren_tightens (path : String) : ∀ es : Entries,
    Option.Rel Tightens (readChildren true path es) (readChildren false path es)
  | [] => .none
  | (k, v) :: rest => by
    rw [readChildren, readChildren]
    split
    · exact .some (readList_tightens path v)
    · exact readChildren_tightens path rest

theorem readList_tightens (path : String) (v : Value) :
    (readList true path v).Tightens (readList false path v) := by
  cases v with
  | list xs => exact readAll_tightens (path ++ ".expressions") 0 xs
  | tuple xs => exact readAll_tightens (path ++ ".expressions") 0 xs
  | _ => exact .fail _

theorem readAll_tightens (path : String) (index : Nat) :
    ∀ xs : List Value, (readAll true path index xs).Tightens (readAll false path index xs)
  | [] => .ok []
  | x :: xs => by
    have hone := readOne_tightens (itemPath path index) x
    have hrest := readAll_tightens path (index + 1) xs
    rw [readAll, readAll]
    exact (keepOrDrop_tightens _ x hone).bind fun kept => hrest.map _

end

/-- **Whatever can be iterated over is read alike.** -/
theorem readItems_tightens (path : String) (v : Value) :
    (readItems true path v).Tightens (readItems false path v) := by
  unfold readItems
  cases v.items? with
  | none => exact .fail _
  | some xs => exact (readAll_tightens path 0 xs).mapError _

end Node

end BoundSql
