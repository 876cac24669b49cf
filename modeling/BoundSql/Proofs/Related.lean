import Mathlib.Data.List.Forall2

/-!
# Related lists

Two lists are related if they are so item by item. They are then two sides of one list of pairs, and
what is known of the items of one is known of those of the other.

* `exists_forall₂` — a list that is related to a given one;
* `exists_pairs` — two sides of one list of pairs;
* `exists_of_mem_right`, `exists_of_getElem?_right`, `forall_mem_of_forall₂` — from the items of one
  list to those of the other;
* `forall₂_iff_forall_mem` — lists that are related in another way as well.
-/

namespace BoundSql

/-- Something that is related to each of some items. -/
theorem exists_forall₂ {α β : Type _} {R : α → β → Prop} {as : List α}
    (h : ∀ a ∈ as, ∃ b, R a b) : ∃ bs, List.Forall₂ R as bs := by
  induction as with
  | nil => exact ⟨[], .nil⟩
  | cons a as ih =>
    obtain ⟨⟨b, hb⟩, has⟩ := List.forall_mem_cons.mp h
    obtain ⟨bs, hbs⟩ := ih has
    exact ⟨b :: bs, .cons hb hbs⟩

/-- Related lists are two sides of one list of pairs. -/
theorem exists_pairs {α β : Type _} {R : α → β → Prop} {as : List α} {bs : List β}
    (h : List.Forall₂ R as bs) :
    ∃ ps : List (α × β), as = ps.map (·.1) ∧ bs = ps.map (·.2) ∧ ∀ p ∈ ps, R p.1 p.2 := by
  induction h with
  | nil => exact ⟨[], rfl, rfl, List.forall_mem_nil _⟩
  | cons hab _ ih =>
    obtain ⟨ps, rfl, rfl, hps⟩ := ih
    exact ⟨(_, _) :: ps, rfl, rfl, List.forall_mem_cons.mpr ⟨hab, hps⟩⟩

/-- Of related lists, every item of the second comes from one of the first. -/
theorem exists_of_mem_right {α β : Type _} {R : α → β → Prop} {as : List α} {bs : List β}
    (h : List.Forall₂ R as bs) {b : β} (hb : b ∈ bs) : ∃ a, R a b := by
  obtain ⟨i, hi, rfl⟩ := List.getElem_of_mem hb
  exact ⟨_, h.get (h.length_eq ▸ hi) hi⟩

/-- Of related lists, the item of the second at some position is related to that of the first. -/
theorem exists_of_getElem?_right {α β : Type _} {R : α → β → Prop} {as : List α} {bs : List β}
    (h : List.Forall₂ R as bs) {i : Nat} {b : β} (hb : bs[i]? = some b) :
    ∃ a, as[i]? = some a ∧ R a b := by
  obtain ⟨hi, rfl⟩ := List.getElem?_eq_some_iff.mp hb
  have hi' : i < as.length := h.length_eq ▸ hi
  exact ⟨as[i], List.getElem?_eq_getElem hi', h.get hi' hi⟩

/-- Items that are related in one way are so in another exactly if each is. -/
theorem forall₂_iff_forall_mem {α β : Type _} {R S : α → β → Prop} {P : α → Prop} {as : List α}
    {bs : List β} (h : List.Forall₂ R as bs) (hiff : ∀ a ∈ as, ∀ b, R a b → (S a b ↔ P a)) :
    List.Forall₂ S as bs ↔ ∀ a ∈ as, P a := by
  induction h with
  | nil => exact iff_of_true .nil (List.forall_mem_nil _)
  | cons hab _ ih =>
    obtain ⟨ha, has⟩ := List.forall_mem_cons.mp hiff
    rw [List.forall₂_cons, List.forall_mem_cons, ha _ hab, ih has]

/-- What follows of each item that another is related to holds of the items related to them. -/
theorem forall_mem_of_forall₂ {α β : Type _} {R : α → β → Prop} {P : β → Prop} {as : List α}
    {bs : List β} (h : List.Forall₂ R as bs) (hP : ∀ a ∈ as, ∀ b, R a b → P b) :
    ∀ b ∈ bs, P b := by
  induction h with
  | nil => exact List.forall_mem_nil _
  | cons hab _ ih =>
    obtain ⟨ha, has⟩ := List.forall_mem_cons.mp hP
    exact List.forall_mem_cons.mpr ⟨ha _ hab, ih has⟩

end BoundSql
