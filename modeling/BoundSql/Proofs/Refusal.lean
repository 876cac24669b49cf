/-!
# The first refusal

Leaves are rendered and rows are stored from left to right, up to the first that is refused; what
comes behind it is not looked at. `FirstRefusal` is said of a whole list and of the reason, so
that the loops with this shape all have their errors stated in the same words.

* `firstRefusal_cons` — an item in front, the step of every induction along such a loop;
* `firstRefusal_append` — a list behind another;
* `exists_firstRefusal_iff` — there is a first refusal where there is any.
-/

namespace BoundSql

variable {α ε : Type _} {refuses : α → ε → Prop}

/-- **The first refusal in a list.** One item is refused for the given reason, and none of the items
in front of it is refused for any reason. -/
def FirstRefusal (refuses : α → ε → Prop) (as : List α) (e : ε) : Prop :=
  ∃ before a behind, as = before ++ a :: behind ∧
    (∀ b ∈ before, ∀ e', ¬ refuses b e') ∧ refuses a e

theorem not_firstRefusal_nil (e : ε) : ¬ FirstRefusal refuses [] e := by
  rintro ⟨before, a, behind, h, -⟩
  exact absurd h.symm (List.append_ne_nil_of_right_ne_nil before (List.cons_ne_nil a behind))

/-- **An item in front** is the one that is refused, or it is not refused at all and the first
refusal is among the others. -/
theorem firstRefusal_cons {a : α} {as : List α} {e : ε} :
    FirstRefusal refuses (a :: as) e ↔
      refuses a e ∨ (∀ e', ¬ refuses a e') ∧ FirstRefusal refuses as e := by
  constructor
  · rintro ⟨before, x, behind, h, hbefore, hx⟩
    -- nothing in front: the first element refuses; else it is one of those that do not
    rcases List.cons_eq_append_iff.mp h with ⟨rfl, hlist⟩ | ⟨rest, rfl, rfl⟩
    · obtain ⟨rfl, -⟩ := List.cons.inj hlist
      exact .inl hx
    · obtain ⟨ha, hrest⟩ := List.forall_mem_cons.mp hbefore
      exact .inr ⟨ha, rest, x, behind, rfl, hrest, hx⟩
  · rintro (ha | ⟨ha, before, x, behind, rfl, hbefore, hx⟩)
    · exact ⟨[], a, as, rfl, List.forall_mem_nil _, ha⟩
    · exact ⟨a :: before, x, behind, rfl, List.forall_mem_cons.mpr ⟨ha, hbefore⟩, hx⟩

/-- There is a first refusal where there is any. -/
theorem exists_firstRefusal_iff {as : List α} :
    (∃ e, FirstRefusal refuses as e) ↔ ∃ a ∈ as, ∃ e, refuses a e := by
  constructor
  · rintro ⟨e, before, a, behind, rfl, -, ha⟩
    exact ⟨a, List.mem_append_right before List.mem_cons_self, e, ha⟩
  · rintro ⟨x, hx, e, he⟩
    induction as with
    | nil => exact absurd hx List.not_mem_nil
    | cons a as ih =>
      -- where the first item is refused the others do not matter
      by_cases ha : ∃ e', refuses a e'
      · obtain ⟨e', ha⟩ := ha
        exact ⟨e', firstRefusal_cons.mpr (.inl ha)⟩
      · have hnone : ∀ e', ¬ refuses a e' := not_exists.mp ha
        have hrest : x ∈ as := (List.mem_cons.mp hx).resolve_left fun h => hnone e (h ▸ he)
        obtain ⟨e', hfirst⟩ := ih hrest
        exact ⟨e', firstRefusal_cons.mpr (.inr ⟨hnone, hfirst⟩)⟩

/-- **A list behind another** has the first refusal if nothing in the other is refused. -/
theorem firstRefusal_append {as bs : List α} {e : ε} :
    FirstRefusal refuses (as ++ bs) e ↔
      FirstRefusal refuses as e ∨
        (∀ a ∈ as, ∀ e', ¬ refuses a e') ∧ FirstRefusal refuses bs e := by
  induction as with
  | nil => simp [not_firstRefusal_nil]
  | cons a as ih =>
    rw [List.cons_append, firstRefusal_cons, ih, firstRefusal_cons, List.forall_mem_cons,
      and_or_left, or_assoc, and_assoc]

/-- Behind a list that nothing is refused of, a list that nothing is refused of changes nothing. -/
theorem firstRefusal_append_of_none {as bs : List α} (h : ∀ b ∈ bs, ∀ e', ¬ refuses b e') {e : ε} :
    FirstRefusal refuses (as ++ bs) e ↔ FirstRefusal refuses as e := by
  rw [firstRefusal_append, or_iff_left_iff_imp]
  rintro ⟨-, he⟩
  obtain ⟨b, hb, e', hrefused⟩ := exists_firstRefusal_iff.mp ⟨e, he⟩
  exact absurd hrefused (h b hb e')

end BoundSql
