import BoundSql.Report

/-!
# Reports in sequence

The laws by which chains of `Report.bind` and `Report.map` are regrouped, and what is known of the
parts of a chain that gave a value or failed.

* `Report.bind_assoc` — a chain can be regrouped;
* `Report.result_bind_eq_ok` — a chain gives a value if each of its parts does;
* `Report.result_bind_eq_error` — it fails with the error of the first part that fails.
-/

namespace BoundSql.Report

variable {ε δ α β γ : Type}

theorem after_after (a b : List Notice) (r : Report ε α) :
    after a (after b r) = after (a ++ b) r := by
  rw [after, after, after, List.append_assoc]

theorem after_bind (a : List Notice) (r : Report ε α) (f : α → Report ε β) :
    (after a r).bind f = after a (r.bind f) := by
  obtain ⟨notices, result⟩ := r
  cases result with
  | error e => rfl
  | ok x => exact (after_after a notices (f x)).symm

/-- **A chain can be regrouped.** -/
theorem bind_assoc (r : Report ε α) (f : α → Report ε β) (g : β → Report ε γ) :
    (r.bind f).bind g = r.bind fun a => (f a).bind g := by
  obtain ⟨notices, result⟩ := r
  cases result with
  | error e => rfl
  | ok a => exact after_bind notices (f a) g

theorem bind_map (r : Report ε α) (f : α → β) (g : β → Report ε γ) :
    (r.map f).bind g = r.bind fun a => g (f a) := by
  obtain ⟨notices, result⟩ := r
  cases result with
  | error e => rfl
  | ok a => rfl

theorem map_map (r : Report ε α) (f : α → β) (g : β → γ) :
    (r.map f).map g = r.map fun a => g (f a) := by
  obtain ⟨notices, result⟩ := r
  cases result with
  | error e => rfl
  | ok a => rfl

@[simp] theorem ofExcept_ok_bind (a : α) (f : α → Report ε β) :
    (ofExcept (.ok a) : Report ε α).bind f = f a :=
  ok_bind a f

theorem bind_ok (r : Report ε α) (f : α → β) : (r.bind fun a => ok (f a)) = r.map f := by
  obtain ⟨notices, result⟩ := r
  cases result with
  | error e => rfl
  | ok a =>
    show Report.mk (notices ++ []) (.ok (f a)) = _
    rw [List.append_nil]
    rfl

/-! ### The parts of a chain that gave a value -/

theorem result_bind_eq_ok {r : Report ε α} {f : α → Report ε β} {b : β} :
    (r.bind f).result = .ok b ↔ ∃ a, r.result = .ok a ∧ (f a).result = .ok b := by
  cases h : r.result with
  | error e => simp [bind_of_error h]
  | ok a => simp [bind_of_ok h, after]

theorem result_map_eq_ok {r : Report ε α} {f : α → β} {b : β} :
    (r.map f).result = .ok b ↔ ∃ a, r.result = .ok a ∧ f a = b := by
  cases h : r.result with
  | error e => simp [map, h, Except.map]
  | ok a => simp [map, h, Except.map]

theorem result_mapError_eq_ok {r : Report ε α} {f : ε → δ} {a : α} :
    (r.mapError f).result = .ok a ↔ r.result = .ok a := by
  cases h : r.result with
  | error e =>
    rw [mapError, h]
    constructor
    · intro hr
      cases hr
    · intro hr
      cases hr
  | ok b =>
    rw [mapError, h]
    constructor
    · intro hr
      exact congrArg _ (Except.ok.inj hr)
    · intro hr
      exact congrArg _ (Except.ok.inj hr)

theorem except_map_eq_ok {x : Except ε α} {f : α → β} {b : β} :
    x.map f = .ok b ↔ ∃ a, x = .ok a ∧ f a = b := by
  cases x <;> simp [Except.map]

/-! ### The part of a chain that failed -/

theorem result_bind_eq_error {r : Report ε α} {f : α → Report ε β} {e : ε} :
    (r.bind f).result = .error e ↔
      r.result = .error e ∨ ∃ a, r.result = .ok a ∧ (f a).result = .error e := by
  cases h : r.result with
  | error e' => simp [bind_of_error h]
  | ok a => simp [bind_of_ok h, after]

theorem result_map_eq_error {r : Report ε α} {f : α → β} {e : ε} :
    (r.map f).result = .error e ↔ r.result = .error e := by
  cases h : r.result with
  | error e' => simp [map, h, Except.map]
  | ok a => simp [map, h, Except.map]

theorem result_mapError_eq_error {r : Report ε α} {f : ε → δ} {d : δ} :
    (r.mapError f).result = .error d ↔ ∃ e, r.result = .error e ∧ f e = d := by
  cases h : r.result with
  | error e =>
    rw [mapError, h]
    show Except.error (f e) = .error d ↔ _
    simp
  | ok a =>
    rw [mapError, h]
    show Except.ok a = .error d ↔ _
    simp

theorem except_map_eq_error {x : Except ε α} {f : α → β} {e : ε} :
    x.map f = .error e ↔ x = .error e := by
  cases x <;> simp [Except.map]

/-! ### Chains that differ by a map -/

/-- A chain gives another value for the other value of its first part, as the rest of it does. -/
theorem result_bind_eq_map {r r' : Report ε α} {f : α → α} {g g' : α → Report ε β} {h : β → β}
    (hr : r'.result = r.result.map f) (hg : ∀ a, (g' (f a)).result = (g a).result.map h) :
    (r'.bind g').result = (r.bind g).result.map h := by
  cases hresult : r.result with
  | error e =>
    rw [hresult] at hr
    rw [bind_of_error hr, bind_of_error hresult]
    rfl
  | ok a =>
    rw [hresult] at hr
    rw [bind_of_ok hr, bind_of_ok hresult]
    exact hg a

/-- Outcomes that are the same under a map are the same error or values that are mapped alike. -/
theorem error_or_ok_of_map_eq {x y : Except ε α} {f : α → β} (h : x.map f = y.map f) :
    (∃ e, x = .error e ∧ y = .error e) ∨ ∃ a b, x = .ok a ∧ y = .ok b ∧ f a = f b := by
  -- a map neither makes nor removes an error
  cases x with
  | error e =>
    cases y with
    | error e' =>
      obtain rfl := Except.error.inj h
      exact .inl ⟨e, rfl, rfl⟩
    | ok b => cases h
  | ok a =>
    cases y with
    | error e => cases h
    | ok b => exact .inr ⟨a, b, rfl, rfl, Except.ok.inj h⟩

/-! ### Two runs -/

/-- **Two chains** come to the same under a map if their first parts do, and their rests do for any
values of these. -/
theorem map_result_bind_eq {r r' : Report ε α} {f : α → γ} {g g' : α → Report ε β} {h : β → δ}
    (hr : r.result.map f = r'.result.map f)
    (hg : ∀ a a', f a = f a' → (g a).result.map h = (g' a').result.map h) :
    (r.bind g).result.map h = (r'.bind g').result.map h := by
  rcases error_or_ok_of_map_eq hr with ⟨e, he, he'⟩ | ⟨a, a', ha, ha', hf⟩
  · rw [bind_of_error he, bind_of_error he']
  · rw [bind_of_ok ha, bind_of_ok ha']
    exact hg a a' hf

/-- Two chains that go on alike come to the same error, up to what is kept of it, or to the same
value, if their first parts do. -/
theorem mapError_result_bind_eq {r r' : Report ε α} {f f' : α → Report ε β} {u : ε → δ}
    (hr : r.result.mapError u = r'.result.mapError u)
    (hf : ∀ a, (f a).result.mapError u = (f' a).result.mapError u) :
    (r.bind f).result.mapError u = (r'.bind f').result.mapError u := by
  cases hresult : r.result with
  | ok a =>
    -- the first parts both go on, with the same value, or both end
    cases hresult' : r'.result with
    | ok a' =>
      rw [hresult, hresult'] at hr
      obtain rfl := Except.ok.inj hr
      rw [bind_of_ok hresult, bind_of_ok hresult']
      exact hf a
    | error e' =>
      rw [hresult, hresult'] at hr
      cases hr
  | error e =>
    cases hresult' : r'.result with
    | ok a' =>
      rw [hresult, hresult'] at hr
      cases hr
    | error e' =>
      rw [hresult, hresult'] at hr
      rw [bind_of_error hresult, bind_of_error hresult']
      exact congrArg Except.error (Except.error.inj hr)

/-- Notices aside, two chains come to the same if their parts do. -/
theorem result_bind_eq {r r' : Report ε α} {f f' : α → Report ε β} (hr : r.result = r'.result)
    (hf : ∀ a, (f a).result = (f' a).result) : (r.bind f).result = (r'.bind f').result := by
  cases hresult : r'.result with
  | ok a =>
    rw [bind_of_ok hresult, bind_of_ok (hr.trans hresult)]
    exact hf a
  | error e => rw [bind_of_error hresult, bind_of_error (hr.trans hresult)]

theorem map_result_map_eq {r r' : Report ε α} {f : α → γ} {g g' : α → β} {h : β → δ}
    (hr : r.result.map f = r'.result.map f) (hg : ∀ a a', f a = f a' → h (g a) = h (g' a')) :
    (r.map g).result.map h = (r'.map g').result.map h := by
  rcases error_or_ok_of_map_eq hr with ⟨e, he, he'⟩ | ⟨a, a', ha, ha', hf⟩
  · rw [map, map, he, he']
    rfl
  · rw [map, map, ha, ha']
    exact congrArg Except.ok (hg a a' hf)

end BoundSql.Report
