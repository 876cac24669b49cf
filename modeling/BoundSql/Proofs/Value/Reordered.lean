import BoundSql.Proofs.Json.Arranged

/-!
# Values in another order

The items of a set come in some order, which is no part of the set. A value comes in another order
if the items of the sets in it do (`Value.Reordered`): of the value itself, and of those in its
items, keys and values, to any depth. The order of lists, tuples and mappings stays as it is.

What is made of a value is steady if it does not depend on this order. For a collection that is a
question about its items, as long as what is made of the collection shows what is made of them:

* `Value.steady_ordered_iff` — lists and tuples;
* `Value.steady_unordered_iff` — sets of which the items are taken in the order they come in;
* `Value.steady_arranged_iff` — sets of which the items are put in the order of their plain texts.
-/

namespace BoundSql

open Json

/-! ### Lists that come in another way -/

section Constant

variable {α β : Type _} {R : α → α → Prop} {xs : List α}

/-- Two sides of one list of related pairs are related. -/
theorem forall₂_of_pairs {ps : List (α × α)} (h : ∀ p ∈ ps, R p.1 p.2) :
    List.Forall₂ R (ps.map (·.1)) (ps.map (·.2)) := by
  rw [List.forall₂_map_left_iff, List.forall₂_map_right_iff, List.forall₂_same]
  exact h

/-- A list is written alike in whatever way its items come exactly if each item is. -/
theorem map_constant_iff (hrefl : ∀ a, R a a) {f : α → β} :
    (∀ ys : List α, List.Forall₂ R xs ys → ys.map f = xs.map f) ↔
      ∀ x ∈ xs, ∀ x', R x x' → f x' = f x := by
  have hsame (l : List α) : List.Forall₂ R l l := List.forall₂_same.mpr fun a _ => hrefl a
  constructor
  · intro h x hx x' hx'
    -- one item is changed and the others are left as they are
    obtain ⟨front, back, rfl⟩ := List.append_of_mem hx
    have hwritten :=
      h (front ++ x' :: back) (List.rel_append (hsame front) (.cons hx' (hsame back)))
    rw [List.map_append, List.map_append, List.append_cancel_left_eq] at hwritten
    exact (List.cons.inj hwritten).1
  · intro h ys hys
    obtain ⟨ps, rfl, rfl, hps⟩ := exists_pairs hys
    rw [List.map_map, List.map_map]
    exact List.map_congr_left fun p hp => h p.1 (List.mem_map_of_mem hp) p.2 (hps p hp)

/-- And it is so in whatever order they come exactly if all items are written alike. -/
theorem map_constant_of_perm_iff (hrefl : ∀ a, R a a) {f : α → β} :
    (∀ ys zs : List α, List.Forall₂ R xs zs → ys.Perm zs → ys.map f = xs.map f) ↔
      (∀ x ∈ xs, ∀ x', R x x' → f x' = f x) ∧ ∀ x ∈ xs, ∀ y ∈ xs, f x = f y := by
  constructor
  · intro h
    refine ⟨(map_constant_iff hrefl).mp fun ys hys => h ys ys hys (List.Perm.refl ys), ?_⟩
    -- each item can come first
    have hfirst : ∀ x ∈ xs, ∃ rest, f x :: rest = xs.map f := by
      intro x hx
      obtain ⟨rest, hperm⟩ := (List.singleton_sublist.mpr hx).exists_perm_append
      exact ⟨rest.map f, h (x :: rest) xs (List.forall₂_same.mpr fun a _ => hrefl a) hperm.symm⟩
    intro x hx y hy
    obtain ⟨restX, hrestX⟩ := hfirst x hx
    obtain ⟨restY, hrestY⟩ := hfirst y hy
    exact (List.cons.inj (hrestX.trans hrestY.symm)).1
  · rintro ⟨hsteady, halike⟩ ys zs hzs hperm
    have hitems : zs.map f = xs.map f := (map_constant_iff hrefl).mpr hsteady zs hzs
    cases xs with
    | nil =>
      cases hzs
      rw [List.perm_nil.mp hperm]
    | cons x xs =>
      -- there is one text only, so lists of one length are the same
      have hone : ∀ t ∈ (x :: xs).map f, t = f x :=
        List.forall_mem_map.mpr fun y hy => halike y hy x List.mem_cons_self
      have hall : (ys.map f).Perm ((x :: xs).map f) := hitems ▸ hperm.map f
      rw [List.eq_replicate_of_mem hone] at hall ⊢
      exact List.perm_replicate.mp hall

end Constant

namespace Value

/-! ### Another order -/

/-- **The same value in another order**: the items of sets come in any order, in the value and in
what it is made of, to any depth. -/
inductive Reordered : Value → Value → Prop where
  | same (v : Value) : Reordered v v
  | list {ps : List (Value × Value)} (h : ∀ p ∈ ps, Reordered p.1 p.2) :
    Reordered (list (ps.map (·.1))) (list (ps.map (·.2)))
  | tuple {ps : List (Value × Value)} (h : ∀ p ∈ ps, Reordered p.1 p.2) :
    Reordered (tuple (ps.map (·.1))) (tuple (ps.map (·.2)))
  | set {ps : List (Value × Value)} {ys : List Value} (h : ∀ p ∈ ps, Reordered p.1 p.2)
    (hperm : ys.Perm (ps.map (·.2))) : Reordered (set (ps.map (·.1))) (set ys)
  | frozenset {ps : List (Value × Value)} {ys : List Value} (h : ∀ p ∈ ps, Reordered p.1 p.2)
    (hperm : ys.Perm (ps.map (·.2))) : Reordered (frozenset (ps.map (·.1))) (frozenset ys)
  | map {ps : List ((Value × Value) × (Value × Value))}
    (hkeys : ∀ p ∈ ps, Reordered p.1.1 p.2.1) (h : ∀ p ∈ ps, Reordered p.1.2 p.2.2) :
    Reordered (map (ps.map (·.1))) (map (ps.map (·.2)))

/-- **What does not depend on the order** in which the items of sets come. -/
def Steady {β : Type} (f : Value → β) (v : Value) : Prop := ∀ w, Reordered v w → f w = f v

/-- Whether the items of a value come in no order of their own. -/
def isUnordered : Value → Bool
  | set _ | frozenset _ => true
  | _ => false

/-- The collections that keep their items in order. -/
inductive KeepsOrder : (List Value → Value) → Prop where
  | list : KeepsOrder list
  | tuple : KeepsOrder tuple

/-- The collections whose items come in no order of their own. -/
inductive LacksOrder : (List Value → Value) → Prop where
  | set : LacksOrder set
  | frozenset : LacksOrder frozenset

/-- Entries in another order. -/
def EntryReordered (e f : Value × Value) : Prop := Reordered e.1 f.1 ∧ Reordered e.2 f.2

theorem EntryReordered.refl (e : Value × Value) : EntryReordered e e := ⟨.same _, .same _⟩

section Inversion

variable {v w : Value} {xs : List Value} {es : Entries} {make : List Value → Value}

/-- What is no structure is the same in every order. -/
theorem Reordered.eq_of_leaf (h : v.Reordered w) (hleaf : v.isStructure = false) : w = v := by
  cases h with
  | same => rfl
  | _ => cases hleaf

theorem forall₂_reordered_self (xs : List Value) : List.Forall₂ Reordered xs xs :=
  List.forall₂_same.mpr fun x _ => .same x

theorem reordered_ordered_iff (hmake : KeepsOrder make) :
    (make xs).Reordered w ↔ ∃ ys, List.Forall₂ Reordered xs ys ∧ w = make ys := by
  constructor
  · intro h
    -- a list stays a list and a tuple a tuple; only the items within may change
    cases hmake with
    | list =>
      cases h with
      | same => exact ⟨xs, forall₂_reordered_self xs, rfl⟩
      | list h => exact ⟨_, forall₂_of_pairs h, rfl⟩
    | tuple =>
      cases h with
      | same => exact ⟨xs, forall₂_reordered_self xs, rfl⟩
      | tuple h => exact ⟨_, forall₂_of_pairs h, rfl⟩
  · rintro ⟨ys, hys, rfl⟩
    obtain ⟨ps, rfl, rfl, hps⟩ := exists_pairs hys
    cases hmake with
    | list => exact .list hps
    | tuple => exact .tuple hps

theorem reordered_unordered_iff (hmake : LacksOrder make) :
    (make xs).Reordered w ↔
      ∃ ys zs, List.Forall₂ Reordered xs zs ∧ ys.Perm zs ∧ w = make ys := by
  constructor
  · intro h
    -- the items may change within, and then come in any order
    cases hmake with
    | set =>
      cases h with
      | same => exact ⟨xs, xs, forall₂_reordered_self xs, List.Perm.refl xs, rfl⟩
      | set h hperm => exact ⟨_, _, forall₂_of_pairs h, hperm, rfl⟩
    | frozenset =>
      cases h with
      | same => exact ⟨xs, xs, forall₂_reordered_self xs, List.Perm.refl xs, rfl⟩
      | frozenset h hperm => exact ⟨_, _, forall₂_of_pairs h, hperm, rfl⟩
  · rintro ⟨ys, zs, hzs, hperm, rfl⟩
    obtain ⟨ps, rfl, rfl, hps⟩ := exists_pairs hzs
    cases hmake with
    | set => exact .set hps hperm
    | frozenset => exact .frozenset hps hperm

theorem reordered_map_iff :
    (map es).Reordered w ↔ ∃ fs, List.Forall₂ EntryReordered es fs ∧ w = map fs := by
  constructor
  · intro h
    cases h with
    | same => exact ⟨es, List.forall₂_same.mpr fun e _ => .refl e, rfl⟩
    | map hkeys h => exact ⟨_, forall₂_of_pairs fun p hp => ⟨hkeys p hp, h p hp⟩, rfl⟩
  · rintro ⟨fs, hfs, rfl⟩
    obtain ⟨ps, rfl, rfl, hps⟩ := exists_pairs hfs
    exact .map (fun p hp => (hps p hp).1) fun p hp => (hps p hp).2

end Inversion

/-! ### Collections that do not show the order -/

section Steady

variable {β γ : Type} {f : Value → β} {part : Value → γ} {xs : List Value}
  {make : List Value → Value}

theorem steady_of_leaf {v : Value} (h : v.isStructure = false) : v.Steady f := by
  intro w hw
  rw [hw.eq_of_leaf h]

/-- What is made of a collection in order is steady exactly if what is made of its items is, where
the one shows the other. -/
theorem steady_ordered_iff (hmake : KeepsOrder make)
    (hparts : ∀ ys, f (make ys) = f (make xs) ↔ ys.map part = xs.map part) :
    (make xs).Steady f ↔ ∀ x ∈ xs, x.Steady part := by
  have hitems : (make xs).Steady f ↔
      ∀ ys : List Value, List.Forall₂ Reordered xs ys → ys.map part = xs.map part := by
    constructor
    · intro h ys hys
      exact (hparts ys).mp (h _ ((reordered_ordered_iff hmake).mpr ⟨ys, hys, rfl⟩))
    · intro h w hw
      obtain ⟨ys, hys, rfl⟩ := (reordered_ordered_iff hmake).mp hw
      exact (hparts ys).mpr (h ys hys)
  exact hitems.trans (map_constant_iff Reordered.same)

/-- A set is steady if all orders of its items give the same. -/
theorem steady_make_iff (hmake : LacksOrder make) :
    (make xs).Steady f ↔ ∀ ys zs : List Value, List.Forall₂ Reordered xs zs → ys.Perm zs →
      f (make ys) = f (make xs) := by
  constructor
  · intro h ys zs hzs hperm
    exact h _ ((reordered_unordered_iff hmake).mpr ⟨ys, zs, hzs, hperm, rfl⟩)
  · intro h w hw
    obtain ⟨ys, zs, hzs, hperm, rfl⟩ := (reordered_unordered_iff hmake).mp hw
    exact h ys zs hzs hperm

/-- For a set that shows its items in the order they come in, the items have to be alike too. -/
theorem steady_unordered_iff (hmake : LacksOrder make)
    (hparts : ∀ ys, f (make ys) = f (make xs) ↔ ys.map part = xs.map part) :
    (make xs).Steady f ↔
      (∀ x ∈ xs, x.Steady part) ∧ ∀ x ∈ xs, ∀ y ∈ xs, part x = part y := by
  calc (make xs).Steady f
    _ ↔ ∀ ys zs : List Value, List.Forall₂ Reordered xs zs → ys.Perm zs →
          f (make ys) = f (make xs) := steady_make_iff hmake
    _ ↔ ∀ ys zs : List Value, List.Forall₂ Reordered xs zs → ys.Perm zs →
          ys.map part = xs.map part := forall₄_congr fun ys _ _ _ => hparts ys
    _ ↔ _ := map_constant_of_perm_iff Reordered.same

/-- For a set that shows them in the order of their plain texts, they have to keep apart. -/
theorem steady_arranged_iff (hmake : LacksOrder make)
    (hparts : ∀ ys, f (make ys) = f (make xs) ↔
      (arranged plainText ys).map part = (arranged plainText xs).map part) :
    (make xs).Steady f ↔
      (∀ x ∈ xs, x.Steady part) ∧ xs.Pairwise (Apart Reordered plainText part) := by
  calc (make xs).Steady f
    _ ↔ ∀ ys zs : List Value, List.Forall₂ Reordered xs zs → ys.Perm zs →
          f (make ys) = f (make xs) := steady_make_iff hmake
    _ ↔ OrderFree Reordered plainText part xs := forall₄_congr fun ys _ _ _ => hparts ys
    _ ↔ _ := orderFree_iff Reordered.same

end Steady

end Value

end BoundSql
