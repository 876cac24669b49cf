import BoundSql.Proofs.Sql.Reading

/-!
# Truth of clauses

Whether a clause is true, given which of its tests are. `AND` binds tighter than `OR`: siblings
that have been read are cut into alternatives in front of each sibling joined by `OR`, and they are
true if all terms of some alternative are. No siblings at all are true.

* `Sql.holds_eq_alternatives` — truth by alternatives;
* `Sql.holds_append_singleton` — one more sibling joined by `AND` narrows the last alternative and
  no other;
* `Sql.narrows_iff` — a group narrows all of its siblings exactly where none of them is joined by
  `OR`.
-/

namespace BoundSql.Sql

mutual

/-- Whether a term is true. -/
def Term.holds (v : Test → Bool) : Term → Bool
  | .test _ t => v t
  | .group _ ts => holdsFrom v true ts

/-- Whether siblings are true behind an alternative that has begun; `begun` says whether its terms
are true so far. -/
def holdsFrom (v : Test → Bool) (begun : Bool) : List Term → Bool
  | [] => begun
  | t :: ts =>
    if t.joiner = some .or then begun || holdsFrom v (t.holds v) ts
    else holdsFrom v (begun && t.holds v) ts

end

/-- Whether siblings are true, the first of them being without a joiner. -/
def holds (v : Test → Bool) (ts : List Term) : Bool := holdsFrom v true ts

@[simp] theorem Term.holds_test (v : Test → Bool) (j : Option Joiner) (t : Test) :
    (Term.test j t).holds v = v t := rfl

@[simp] theorem Term.holds_group (v : Test → Bool) (j : Option Joiner) (ts : List Term) :
    (Term.group j ts).holds v = Sql.holds v ts := rfl

theorem holdsFrom_cons (v : Test → Bool) (begun : Bool) (t : Term) (ts : List Term) :
    holdsFrom v begun (t :: ts) =
      if t.joiner = some .or then begun || holdsFrom v (t.holds v) ts
      else holdsFrom v (begun && t.holds v) ts := rfl

/-! ### Alternatives -/

/-- The alternatives of siblings behind terms that are part of the first alternative. -/
def alternativesFrom (begun : List Term) : List Term → List (List Term)
  | [] => [begun]
  | t :: ts =>
    if t.joiner = some .or then begun :: alternativesFrom [t] ts
    else alternativesFrom (begun ++ [t]) ts

/-- The alternatives of siblings. -/
def alternatives (ts : List Term) : List (List Term) := alternativesFrom [] ts

/-- All alternatives but the last. -/
def earlier (ts : List Term) : List (List Term) := (alternatives ts).dropLast

/-- The last alternative. -/
def latest (ts : List Term) : List Term := (alternatives ts).getLastD []

/-- Whether all terms of an alternative are true. -/
def meets (v : Test → Bool) (ts : List Term) : Bool := ts.all (Term.holds v)

theorem meets_append_singleton (v : Test → Bool) (ts : List Term) (t : Term) :
    meets v (ts ++ [t]) = (meets v ts && t.holds v) := by
  simp [meets]

theorem holdsFrom_eq_alternatives (v : Test → Bool) (begun ts : List Term) :
    holdsFrom v (meets v begun) ts = (alternativesFrom begun ts).any (meets v) := by
  induction ts generalizing begun with
  | nil => exact (Bool.or_false _).symm
  | cons t ts ih =>
    have hsingle : t.holds v = meets v [t] := (Bool.and_true _).symm
    rw [holdsFrom_cons, alternativesFrom]
    split
    · -- the alternative that has begun is complete, the term begins the next
      rw [hsingle, ih, List.any_cons]
    · -- the term goes on with the alternative
      rw [← meets_append_singleton, ih]

/-- **Truth by alternatives.** Siblings are true if all terms of some alternative are. -/
theorem holds_eq_alternatives (v : Test → Bool) (ts : List Term) :
    holds v ts = (alternatives ts).any (meets v) :=
  holdsFrom_eq_alternatives v [] ts

theorem alternativesFrom_ne_nil (begun ts : List Term) : alternativesFrom begun ts ≠ [] := by
  induction ts generalizing begun with
  | nil => exact List.cons_ne_nil _ _
  | cons t ts ih =>
    rw [alternativesFrom]
    split
    · exact List.cons_ne_nil _ _
    · exact ih _

theorem alternatives_eq (ts : List Term) : alternatives ts = earlier ts ++ [latest ts] := by
  have hne : alternatives ts ≠ [] := alternativesFrom_ne_nil [] ts
  rw [earlier, latest, List.getLastD_eq_getLast?, List.getLast?_eq_some_getLast hne]
  exact (List.dropLast_concat_getLast hne).symm

theorem holds_eq (v : Test → Bool) (ts : List Term) :
    holds v ts = ((earlier ts).any (meets v) || meets v (latest ts)) := by
  rw [holds_eq_alternatives, alternatives_eq]
  simp

/-- One more sibling that is not joined by `OR` goes to the last alternative. -/
theorem alternativesFrom_append_singleton {t : Term} (ht : t.joiner ≠ some .or)
    (begun ts : List Term) :
    alternativesFrom begun (ts ++ [t]) =
      (alternativesFrom begun ts).dropLast ++ [(alternativesFrom begun ts).getLastD [] ++ [t]] := by
  induction ts generalizing begun with
  | nil =>
    show (if t.joiner = some .or then _ else _) = _
    rw [if_neg ht]
    rfl
  | cons u ts ih =>
    rw [List.cons_append, alternativesFrom, alternativesFrom]
    split
    · -- the alternative that ends here has others behind it, so it is not the last
      have hne := alternativesFrom_ne_nil [u] ts
      rw [ih, List.dropLast_cons_of_ne_nil hne, List.cons_append]
      cases halternatives : alternativesFrom [u] ts with
      | nil => exact absurd halternatives hne
      | cons a as => rfl
    · exact ih _

/-- **One more sibling joined by `AND`** narrows the last alternative and no other. -/
theorem holds_append_singleton (v : Test → Bool) {t : Term} (ht : t.joiner ≠ some .or)
    (ts : List Term) :
    holds v (ts ++ [t]) =
      ((earlier ts).any (meets v) || (meets v (latest ts) && t.holds v)) := by
  rw [holds_eq_alternatives, alternatives, alternativesFrom_append_singleton ht, List.any_append,
    ← meets_append_singleton]
  exact congrArg _ (Bool.or_false _)

theorem earlierFrom_eq_nil (begun ts : List Term) :
    (alternativesFrom begun ts).dropLast = [] ↔ ∀ t ∈ ts, t.joiner ≠ some .or := by
  induction ts generalizing begun with
  | nil => simp [alternativesFrom]
  | cons t ts ih =>
    rw [alternativesFrom, List.forall_mem_cons]
    -- an `OR` leaves an alternative behind
    split
    · rename_i ht
      rw [List.dropLast_cons_of_ne_nil (alternativesFrom_ne_nil _ _)]
      exact ⟨fun h => absurd h (List.cons_ne_nil _ _), fun h => absurd ht h.1⟩
    · rename_i ht
      rw [ih]
      exact ⟨fun h => ⟨ht, h⟩, fun h => h.2⟩

/-- **One alternative.** The last alternative is the only one where no sibling is joined by
`OR`. -/
theorem earlier_eq_nil (ts : List Term) : earlier ts = [] ↔ ∀ t ∈ ts, t.joiner ≠ some .or :=
  earlierFrom_eq_nil [] ts

/-! ### Truth of particular siblings -/

/-- Siblings joined by `OR` are true if one of them is. -/
theorem holdsFrom_of_or (v : Test → Bool) {ts : List Term}
    (h : ∀ t ∈ ts, t.joiner = some .or) (begun : Bool) :
    holdsFrom v begun ts = (begun || ts.any (Term.holds v)) := by
  induction ts generalizing begun with
  | nil => exact (Bool.or_false _).symm
  | cons t ts ih =>
    obtain ⟨ht, hts⟩ := List.forall_mem_cons.mp h
    rw [holdsFrom_cons, if_pos ht, ih hts, List.any_cons]

/-- Tests joined by `OR`. -/
def anyOf : List Test → List Term
  | [] => []
  | t :: ts => .test none t :: ts.map (Term.test (some .or))

/-- Tests joined by `OR` read as they are. -/
theorem settle_anyOf (ts : List Test) : settle true (anyOf ts) = anyOf ts := by
  -- behind the first test every joiner is written already
  have hbehind : ∀ ts : List Test, settle false (ts.map (Term.test (some .or))) =
      ts.map (Term.test (some .or)) := by
    intro ts
    induction ts with
    | nil => rfl
    | cons t ts ih =>
      rw [List.map_cons, settle_cons, ih]
      rfl
  cases ts with
  | nil => rfl
  | cons t ts =>
    rw [anyOf, settle_cons, hbehind]
    rfl

/-- **Tests joined by `OR`** are true if one of them is. -/
theorem holds_anyOf (v : Test → Bool) {ts : List Test} (hne : ts ≠ []) :
    holds v (anyOf ts) = ts.any v := by
  cases ts with
  | nil => exact absurd rfl hne
  | cons t ts =>
    -- all but the first have `OR` in front, so each test is an alternative of its own
    have hor : ∀ u ∈ ts.map (Term.test (some .or)), u.joiner = some .or := by
      intro u hu
      obtain ⟨x, -, rfl⟩ := List.mem_map.mp hu
      rfl
    have hfirst : (Term.test none t).joiner ≠ some .or := fun h => nomatch h
    rw [holds, anyOf, holdsFrom_cons, if_neg hfirst, holdsFrom_of_or v hor, List.any_map,
      List.any_cons, Bool.true_and, Term.holds_test]
    rfl

/-- Where all tests are true, so are the siblings. -/
theorem holdsFrom_of_tests {v : Test → Bool} {ts : List Term} (h : ∀ t ∈ tests ts, v t = true) :
    holdsFrom v true ts = true := by
  -- a true term behind a true alternative leaves a true alternative, whatever its joiner is
  have hcons : ∀ (t : Term) (ts : List Term), t.holds v = true → holdsFrom v true ts = true →
      holdsFrom v true (t :: ts) = true := by
    intro t ts ht hts
    rw [holdsFrom_cons, ht, Bool.true_and, hts]
    exact ite_self true
  induction ts using forest_induction with
  | nil => rfl
  | test j t ts ih =>
    obtain ⟨ht, hts⟩ := List.forall_mem_cons.mp h
    exact hcons _ _ ht (ih hts)
  | group j inner ts ihInner ih =>
    obtain ⟨hinner, hts⟩ := List.forall_mem_append.mp h
    exact hcons _ _ (ihInner hinner) (ih hts)

theorem Term.holds_of_tests {v : Test → Bool} {t : Term} (h : ∀ u ∈ t.tests, v u = true) :
    t.holds v = true := by
  cases t with
  | test j t => exact h t (List.mem_singleton_self t)
  | group j ts => exact holdsFrom_of_tests h

theorem mem_tests {ts : List Term} {t : Term} (ht : t ∈ ts) {u : Test} (hu : u ∈ t.tests) :
    u ∈ tests ts := by
  induction ts with
  | nil => cases ht
  | cons x ts ih =>
    rcases List.mem_cons.mp ht with rfl | ht
    · exact List.mem_append_left _ hu
    · exact List.mem_append_right _ (ih ht)

/-- Where all terms are true, so is every alternative. -/
theorem meets_of_mem_alternativesFrom {v : Test → Bool} {begun ts : List Term}
    (hbegun : meets v begun = true) (h : ∀ t ∈ ts, t.holds v = true) :
    ∀ a ∈ alternativesFrom begun ts, meets v a = true := by
  induction ts generalizing begun with
  | nil =>
    intro a ha
    rw [List.mem_singleton.mp ha]
    exact hbegun
  | cons t ts ih =>
    obtain ⟨ht, hts⟩ := List.forall_mem_cons.mp h
    have hsingle : meets v [t] = true := by simp [meets, ht]
    rw [alternativesFrom]
    -- an `OR` begins a new alternative, an `AND` goes on with the one that is begun
    split
    · intro a ha
      rcases List.mem_cons.mp ha with rfl | ha
      · exact hbegun
      · exact ih hsingle hts a ha
    · refine ih ?_ hts
      rw [meets_append_singleton, hbegun, ht]
      rfl

/-! ### One more group of tests -/

/-- **When a group narrows its siblings.** Tests of its own, joined by `OR`, in a group joined by
`AND` narrow the siblings in front of it exactly where none of these is joined by `OR`. -/
theorem narrows_iff {ts : List Term} {us : List Test} {j : Option Joiner} (hj : j ≠ some .or)
    (hne : us ≠ []) (hfresh : ∀ t ∈ tests ts, t ∉ us) :
    (∀ v, holds v (ts ++ [.group j (anyOf us)]) = (holds v ts && us.any v)) ↔
      ∀ t ∈ ts, t.joiner ≠ some .or := by
  have hgroup : ∀ v, (Term.group j (anyOf us)).holds v = us.any v := fun v =>
    (Term.holds_group v j _).trans (holds_anyOf v hne)
  have hjoiner : (Term.group j (anyOf us)).joiner ≠ some .or := hj
  constructor
  · intro h
    rw [← earlier_eq_nil]
    cases hearlier : earlier ts with
    | nil => rfl
    | cons a as =>
      -- where the group is all that is false, an earlier alternative is true all the same
      exfalso
      let v : Test → Bool := fun t => !us.contains t
      have hus : us.any v = false := by simp [v]
      have hts : ∀ t ∈ ts, t.holds v = true := by
        intro t ht
        refine Term.holds_of_tests fun u hu => ?_
        have hu := hfresh u (mem_tests ht hu)
        simp [v, hu]
      have hmem : a ∈ earlier ts := hearlier ▸ List.mem_cons_self
      have hbegun : meets v [] = true := rfl
      have hmeets : meets v a = true :=
        meets_of_mem_alternativesFrom hbegun hts a (List.dropLast_subset _ hmem)
      have hany : (earlier ts).any (meets v) = true := List.any_eq_true.mpr ⟨a, hmem, hmeets⟩
      have hv := h v
      rw [holds_append_singleton v hjoiner, hany, hus, Bool.true_or, Bool.and_false] at hv
      cases hv
  · -- without `OR` there is one alternative, which the group is a part of
    intro h v
    have hearlier := (earlier_eq_nil ts).mpr h
    rw [holds_append_singleton v hjoiner, holds_eq, hearlier, hgroup]
    rfl

end BoundSql.Sql
