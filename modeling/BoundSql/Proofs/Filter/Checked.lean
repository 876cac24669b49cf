import BoundSql.Filter.Check

/-!
# What passes a check

A check of several fields passes if the check of each field does and no key is unknown. So what is
known of a value that passed is known field by field.

* `Check.closed_eq_ok` — no key is unknown;
* `Node.checkGroup_eq_ok`, `Selection.checkWith_eq_ok` — groups and selections whose nodes are
  given.
-/

namespace BoundSql

namespace Checked

variable {α β γ : Type}

theorem map_eq_ok {c : Checked α} {f : α → β} {b : β} :
    c.map f = .ok b ↔ ∃ a, c = .ok a ∧ f a = b := by
  cases c <;> simp [map]

theorem below_eq_ok {c : Checked α} {s : Step} {a : α} : c.below s = .ok a ↔ c = .ok a := by
  cases c <;> simp [below]

theorem zipWith_eq_ok {f : α → β → γ} {x : Checked α} {y : Checked β} {c : γ} :
    zipWith f x y = .ok c ↔ ∃ a b, x = .ok a ∧ y = .ok b ∧ f a b = c := by
  cases x <;> cases y <;> simp [zipWith]

end Checked

open Checked

/-- **No key is unknown.** -/
theorem Check.closed_eq_ok {α : Type} {known : List String} {es : Entries} {c : Checked α} {a : α} :
    closed known es c = .ok a ↔ unknownKeys known es = [] ∧ c = .ok a := by
  unfold closed
  cases unknownKeys known es with
  | nil => simp
  | cons issue found => cases c <;> simp

/-- A text passes as a text, also as a member. -/
theorem Check.text_of_asText? {v : Value} {s : String} (h : v.asText? = some s) :
    Check.text v = .ok s := by
  cases v with
  | text t =>
    cases h
    rfl
  | member type base name value =>
    cases base with
    | text =>
      simp only [text, h]
    | _ => cases h
  | _ => cases h

/-- A text passes as a name if it is not empty. -/
theorem Check.name_of_asText? {v : Value} {s : String} (h : v.asText? = some s) (hne : s ≠ "") :
    Check.name v = .ok s := by
  have hempty : s.isEmpty = false := by simpa using hne
  rw [Check.name, Check.text_of_asText? h]
  simp [hempty]

namespace Node

/-- A group whose children are good passes if its joiner does. -/
theorem checkGroup_eq_ok {children : List Node} {es : Entries} {n : Node} :
    checkGroup (some (.ok children)) es = .ok n ↔
      Check.unknownKeys ["expressions", Check.spelling "conditionType" "condition_type" es] es =
        [] ∧
      ∃ j, Check.joinerField es = .ok j ∧ group children j = n := by
  unfold checkGroup
  rw [Check.closed_eq_ok, zipWith_eq_ok]
  refine and_congr_right fun _ => ⟨?_, ?_⟩
  · rintro ⟨_, j, hchildren, hj, rfl⟩
    cases hchildren
    exact ⟨j, hj, rfl⟩
  · rintro ⟨j, hj, rfl⟩
    exact ⟨children, j, rfl, hj, rfl⟩

end Node

/-- A selection whose nodes are good passes if each of its other fields does. -/
theorem Selection.checkWith_eq_ok {filters : Option (List Node)} {es : Entries} {s : Selection} :
    checkWith (.ok filters) es = .ok s ↔
      Check.unknownKeys ["filters", "sort", "limit", "offset",
        Check.spelling "freeText" "free_text" es] es = [] ∧
      s.filters = filters ∧
      Check.allowed "sort" optionalSort none es = .ok s.sort ∧
      Check.allowed "limit" Check.count none es = .ok s.limit ∧
      Check.allowed "offset" Check.count none es = .ok s.offset ∧
      Check.allowed (Check.spelling "freeText" "free_text" es) Check.optionalText none es =
        .ok s.freeText := by
  unfold checkWith
  rw [Check.closed_eq_ok]
  refine and_congr_right fun _ => ?_
  -- the fields are put together from the left, so the existentials nest the same way
  simp only [zipWith_eq_ok]
  constructor
  · rintro ⟨_, text, ⟨_, offset, ⟨_, limit, ⟨_, sort, hfilters, hsort, rfl⟩, hlimit, rfl⟩,
      hoffset, rfl⟩, htext, rfl⟩
    cases hfilters
    exact ⟨rfl, hsort, hlimit, hoffset, htext⟩
  · rintro ⟨rfl, hsort, hlimit, hoffset, htext⟩
    exact ⟨_, _, ⟨_, _, ⟨_, _, ⟨_, _, rfl, hsort, rfl⟩, hlimit, rfl⟩, hoffset, rfl⟩, htext, rfl⟩

end BoundSql
