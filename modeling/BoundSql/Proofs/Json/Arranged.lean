import BoundSql.Proofs.Value.Elements
import Mathlib.Data.List.Perm.Basic
import Mathlib.Data.String.Basic

/-!
# Items in the order of their texts

The items of a set come in any order, and they are put in the order of their plain texts before they
are written. Does what is written still depend on the order they came in? Items with the same plain
text stay in the order they came in, so it does unless these are written alike. And the plain text
of an item may itself depend on such an order, that of a set inside the item; the item must not pass
another that is written otherwise when its plain text changes.

Both are one condition on pairs of items (`Apart`): they are written alike, or one of them is in
front of the other in whatever way each of them came. The items may change along any relation here;
nothing is used of it but that an item may stay as it is.

* `map_eq_of_perm` — lists of the same items in an order that is strict but for items written alike
  are written alike;
* `text_eq_of_between` — an item that may come out on both sides of another is written like it;
* `orderFree_iff` — when items are written alike, in whatever order and way they come.
-/

namespace BoundSql

/-- A list that stays the same when its first item is moved to the end has one item only. -/
theorem eq_of_cons_eq_append {β : Type _} {u : β} {us : List β} (h : u :: us = us ++ [u]) :
    ∀ v ∈ us, v = u := by
  induction us with
  | nil => exact List.forall_mem_nil _
  | cons v us ih =>
    obtain ⟨rfl, hrest⟩ := List.cons.inj h
    exact List.forall_mem_cons.mpr ⟨rfl, ih hrest⟩

namespace Json

section Arranged

variable {α β : Type _} {plain : α → String} {text : α → β} {as bs : List α}

/-- Items in the order of their plain texts; those with the same one stay in order. -/
def arranged (plain : α → String) (as : List α) : List α :=
  as.mergeSort fun a b => textBefore (plain a) (plain b)

theorem textBefore_iff {s t : String} : textBefore s t = true ↔ s ≤ t := by
  rw [textBefore, Bool.not_eq_true', decide_eq_false_iff_not, not_lt]

theorem arranged_perm (plain : α → String) (as : List α) : (arranged plain as).Perm as :=
  List.mergeSort_perm _ _

theorem pairwise_arranged (plain : α → String) (as : List α) :
    (arranged plain as).Pairwise fun a b => plain a ≤ plain b := by
  have hsorted : (arranged plain as).Pairwise fun a b => textBefore (plain a) (plain b) = true := by
    refine List.pairwise_mergeSort (fun a b c hab hbc => ?_) (fun a b => ?_) as
    · exact textBefore_iff.mpr (le_trans (textBefore_iff.mp hab) (textBefore_iff.mp hbc))
    · rw [Bool.or_eq_true, textBefore_iff, textBefore_iff]
      exact le_total _ _
  exact hsorted.imp fun h => textBefore_iff.mp h

/-- What is in order already is left alone. -/
theorem arranged_of_pairwise (h : as.Pairwise fun a b => plain a ≤ plain b) :
    arranged plain as = as :=
  List.mergeSort_of_pairwise (h.imp fun h => textBefore_iff.mpr h)

/-- What is made of items in this order is made of the items and put in order. -/
theorem inTextOrder_map_items (texts : List String) (g : α → β) (items : List α) :
    inTextOrder texts (items.map g) = (inTextOrder texts items).map g := by
  rw [inTextOrder, inTextOrder, List.zip_map_right,
    ← List.map_mergeSort (r := fun a b => textBefore a.1 b.1) (fun _ _ _ _ => rfl),
    List.map_map, List.map_map]
  rfl

/-! ### Items that come out in one order -/

/-- **The same items in an order that is strict**, but for items that are written alike, are written
alike. -/
theorem map_eq_of_perm {S : α → α → Prop} (hanti : ∀ a b, S a b → S b a → text a = text b)
    (hperm : as.Perm bs) (has : as.Pairwise S) (hbs : bs.Pairwise S) :
    as.map text = bs.map text := by
  induction as generalizing bs with
  | nil => rw [List.nil_perm.mp hperm]
  | cons a as ih =>
    obtain ⟨front, back, rfl⟩ := List.append_of_mem (hperm.mem_iff.mp List.mem_cons_self)
    obtain ⟨hbehind, has⟩ := List.pairwise_cons.mp has
    obtain ⟨-, -, hacross⟩ := List.pairwise_append.mp hbs
    -- what is in front of the item in one list is behind it in the other
    have hfront : ∀ b ∈ front, text b = text a := by
      intro b hb
      have hmem : b ∈ a :: as := hperm.mem_iff.mpr (List.mem_append_left _ hb)
      rcases List.mem_cons.mp hmem with rfl | hb'
      · rfl
      · exact hanti b a (hacross b hb a List.mem_cons_self) (hbehind b hb')
    have hrest : as.map text = (front ++ back).map text :=
      ih (hperm.trans List.perm_middle).cons_inv has
        (hbs.sublist ((List.Sublist.refl front).append (List.sublist_cons_self a back)))
    have hreplicate : front.map text = List.replicate front.length (text a) :=
      List.eq_replicate_iff.mpr ⟨List.length_map _, List.forall_mem_map.mpr hfront⟩
    calc (a :: as).map text
        = text a :: (List.replicate front.length (text a) ++ back.map text) := by
          rw [List.map_cons, hrest, List.map_append, hreplicate]
      _ = List.replicate front.length (text a) ++ text a :: back.map text := by
          rw [← List.cons_append, ← List.replicate_succ, List.replicate_succ', List.append_assoc]
          rfl
      _ = (front ++ a :: back).map text := by
          rw [List.map_append, List.map_cons, hreplicate]

section Apart

variable {R : α → α → Prop}

/-- **One item is in front of another**, in whatever way each of them comes. -/
def Ahead (R : α → α → Prop) (plain : α → String) (a b : α) : Prop :=
  ∀ a' b', R a a' → R b b' → plain a' < plain b'

/-- **Two items keep apart**: they are written alike, or one of them is always in front of the
other. -/
def Apart (R : α → α → Prop) (plain : α → String) (text : α → β) (a b : α) : Prop :=
  text a = text b ∨ Ahead R plain a b ∨ Ahead R plain b a

theorem Apart.symm {a b : α} (h : Apart R plain text a b) : Apart R plain text b a := by
  rcases h with h | h | h
  · exact .inl h.symm
  · exact .inr (.inr h)
  · exact .inr (.inl h)

/-- Items that keep apart are written alike, in whatever order and way they come, if each of them
is. -/
theorem map_arranged_eq (hrefl : ∀ a, R a a) {xs ys zs : List α}
    (htext : ∀ x ∈ xs, ∀ x', R x x' → text x' = text x)
    (hapart : xs.Pairwise (Apart R plain text)) (hzs : List.Forall₂ R xs zs) (hperm : ys.Perm zs) :
    (arranged plain ys).map text = (arranged plain xs).map text := by
  obtain ⟨ps, rfl, rfl, hps⟩ := exists_pairs hzs
  have himage {as : List α} {side : α × α → α} (h : as.Perm (ps.map side)) :
      ∃ qs : List (α × α), as = qs.map side ∧ qs.Perm ps :=
    (congrFun₂ (List.eq_map_comp_perm side) as ps).mpr h
  obtain ⟨qs, hqs', hqs⟩ := himage ((arranged_perm plain ys).trans hperm)
  obtain ⟨rs, hrs', hrs⟩ := himage (arranged_perm plain (ps.map (·.1)))
  -- on either side the pairs stand in one order, that of the items they started from
  let S (p q : α × α) : Prop := text p.1 = text q.1 ∨ Ahead R plain p.1 q.1
  have hanti : ∀ p q, S p q → S q p → text p.1 = text q.1 := by
    rintro p q (h | h) h'
    · exact h
    · rcases h' with h' | h'
      · exact h'.symm
      · have hlt := h p.1 q.1 (hrefl _) (hrefl _)
        exact absurd (h' q.1 p.1 (hrefl _) (hrefl _)) (lt_asymm hlt)
  -- whichever side is sorted, of two pairs that keep apart only one can come out in front
  have hordered : ∀ {ls : List (α × α)} {side : α × α → α}, ls.Perm ps →
      (∀ p ∈ ps, R p.1 (side p)) → (ls.map side).Pairwise (fun a b => plain a ≤ plain b) →
      ls.Pairwise S := by
    intro ls side hls hside hsorted
    have hpairs : ls.Pairwise fun p q => Apart R plain text p.1 q.1 :=
      hls.symm.pairwise (List.pairwise_map.mp hapart) Apart.symm
    refine (hpairs.and (List.pairwise_map.mp hsorted)).imp_of_mem ?_
    rintro p q hp hq ⟨h | h | h, hle⟩
    · exact .inl h
    · exact .inr h
    · have hlt := h _ _ (hside q (hls.mem_iff.mp hq)) (hside p (hls.mem_iff.mp hp))
      exact absurd hlt (not_lt.mpr hle)
  have hleft : qs.Pairwise S := hordered hqs hps (hqs' ▸ pairwise_arranged plain ys)
  have hright : rs.Pairwise S := by
    refine hordered hrs (fun p _ => hrefl p.1) ?_
    rw [← hrs']
    exact pairwise_arranged plain _
  calc (arranged plain ys).map text
      = qs.map fun p => text p.2 := by rw [hqs', List.map_map]; rfl
    _ = qs.map fun p => text p.1 := by
        refine List.map_congr_left fun p hp => ?_
        have hmem : p ∈ ps := hqs.mem_iff.mp hp
        exact htext p.1 (List.mem_map_of_mem hmem) p.2 (hps p hmem)
    _ = rs.map fun p => text p.1 := map_eq_of_perm hanti (hqs.trans hrs.symm) hleft hright
    _ = (arranged plain (ps.map (·.1))).map text := by rw [hrs', List.map_map]; rfl

/-! ### Items that come out in more than one order -/

/-- Items in order can be cut in front of the first that is too great. -/
theorem exists_cut (low : α → Prop) (hlow : ∀ a b, plain a ≤ plain b → low b → low a)
    (h : as.Pairwise fun a b => plain a ≤ plain b) :
    ∃ front back, as = front ++ back ∧ (∀ a ∈ front, low a) ∧ ∀ a ∈ back, ¬ low a := by
  induction as with
  | nil => exact ⟨[], [], rfl, List.forall_mem_nil _, List.forall_mem_nil _⟩
  | cons a as ih =>
    obtain ⟨hbehind, hrest⟩ := List.pairwise_cons.mp h
    by_cases ha : low a
    · obtain ⟨front, back, rfl, hfront, hback⟩ := ih hrest
      exact ⟨a :: front, back, rfl, List.forall_mem_cons.mpr ⟨ha, hfront⟩, hback⟩
    · -- the cut is here: nothing behind an item that is too great is less
      refine ⟨[], a :: as, rfl, List.forall_mem_nil _, List.forall_mem_cons.mpr ⟨ha, ?_⟩⟩
      exact fun b hb hlowb => ha (hlow a b (hbehind b hb) hlowb)

/-- An item is put in order between those that are not greater and those that are not less. -/
theorem pairwise_put {a : α} {front back : List α}
    (h : (front ++ back).Pairwise fun a b => plain a ≤ plain b)
    (hfront : ∀ b ∈ front, plain b ≤ plain a) (hback : ∀ b ∈ back, plain a ≤ plain b) :
    (front ++ a :: back).Pairwise fun a b => plain a ≤ plain b := by
  obtain ⟨hf, hb, hacross⟩ := List.pairwise_append.mp h
  refine List.pairwise_append.mpr ⟨hf, List.pairwise_cons.mpr ⟨hback, hb⟩, ?_⟩
  intro b hb' c hc
  rcases List.mem_cons.mp hc with rfl | hc
  · exact hfront b hb'
  · exact hacross b hb' c hc

/-- **An item that may come out on both sides of another is written like it**, if items are written
alike in whatever order they come. -/
theorem text_eq_of_between {a a' b : α} {l : List α} {written : List β}
    (ha : ∀ ys, ys.Perm (a :: l) → (arranged plain ys).map text = written)
    (ha' : ∀ ys, ys.Perm (a' :: l) → (arranged plain ys).map text = written)
    (htext : text a' = text a) (hb : b ∈ l) (hle : plain a ≤ plain b)
    (hle' : plain b ≤ plain a') : text b = text a := by
  -- the other items in order, cut in front of one place of the item and behind the other
  obtain ⟨front, rest, hl, hfront, hrest⟩ :=
    exists_cut (fun x => plain x < plain a) (fun _ _ h h' => lt_of_le_of_lt h h')
      (pairwise_arranged plain l)
  obtain ⟨middle, back, rfl, hmiddle, hback⟩ :=
    exists_cut (fun x => plain x ≤ plain a') (fun _ _ h h' => le_trans h h')
      (List.pairwise_append.mp (hl ▸ pairwise_arranged plain l)).2.1
  have hsorted : (front ++ (middle ++ back)).Pairwise fun a b => plain a ≤ plain b :=
    hl ▸ pairwise_arranged plain l
  have hperm : (front ++ (middle ++ back)).Perm l := hl ▸ arranged_perm plain l
  have hbetween : b ∈ middle := by
    have hmem : b ∈ front ++ (middle ++ back) := hperm.mem_iff.mpr hb
    rcases List.mem_append.mp hmem with h | h
    · exact absurd (hfront b h) (not_lt.mpr hle)
    · rcases List.mem_append.mp h with h | h
      · exact h
      · exact absurd hle' (hback b h)
  have hfirst : (front ++ a :: (middle ++ back)).map text = written := by
    have hput : (front ++ a :: (middle ++ back)).Pairwise fun a b => plain a ≤ plain b :=
      pairwise_put hsorted (fun x hx => le_of_lt (hfront x hx))
        fun x hx => not_lt.mp (hrest x hx)
    rw [← arranged_of_pairwise hput]
    exact ha _ (List.perm_middle.trans (hperm.cons a))
  have hsecond : (front ++ middle ++ a' :: back).map text = written := by
    have hlow : ∀ x ∈ front ++ middle, plain x ≤ plain a' := by
      intro x hx
      rcases List.mem_append.mp hx with hx | hx
      · exact le_trans (le_of_lt (hfront x hx)) (le_trans hle hle')
      · exact hmiddle x hx
    have hhigh : ∀ x ∈ back, plain a' ≤ plain x := fun x hx =>
      (le_total _ _).resolve_right (hback x hx)
    rw [← List.append_assoc] at hsorted hperm
    rw [← arranged_of_pairwise (pairwise_put hsorted hlow hhigh)]
    exact ha' _ (List.perm_middle.trans (hperm.cons a'))
  -- what stands between the two places is the same with the item in front of it and behind it
  have hmoved : text a :: middle.map text = middle.map text ++ [text a] := by
    have hboth := hfirst.trans hsecond.symm
    simp only [List.map_append, List.map_cons, List.append_assoc, htext] at hboth
    have hcancelled := List.append_cancel_left hboth
    rw [← List.cons_append, ← List.singleton_append (l := back.map text), ← List.append_assoc]
      at hcancelled
    exact List.append_cancel_right hcancelled
  exact eq_of_cons_eq_append hmoved _ (List.mem_map_of_mem hbetween)

/-- An item that neither passes another nor is passed by it is always on one side of it. -/
theorem ahead_or_ahead (hrefl : ∀ a, R a a) {a b : α}
    (h : ∀ a' a'' b', R a a' → R a a'' → R b b' → plain a' ≤ plain b' → ¬ plain b' ≤ plain a'')
    (h' : ∀ b' b'' a', R b b' → R b b'' → R a a' → plain b' ≤ plain a' → ¬ plain a' ≤ plain b'') :
    Ahead R plain a b ∨ Ahead R plain b a := by
  -- the one that starts in front stays there, whichever of the two comes in another way first
  rcases le_total (plain a) (plain b) with hab | hba
  · refine .inl fun a' b' ha hb => ?_
    have ha' : ¬ plain b ≤ plain a' := h a a' b (hrefl a) ha (hrefl b) hab
    refine not_le.mp fun hle => ?_
    exact h' b' b a' hb (hrefl b) ha hle ((le_total _ _).resolve_right ha')
  · refine .inr fun b' a' hb ha => ?_
    have hb' : ¬ plain a ≤ plain b' := h' b b' a (hrefl b) hb (hrefl a) hba
    refine not_le.mp fun hle => ?_
    exact h a' a b' ha (hrefl a) hb hle ((le_total _ _).resolve_right hb')

/-- **Items that are written alike**, in whatever order and way they come. -/
def OrderFree (R : α → α → Prop) (plain : α → String) (text : α → β) (xs : List α) : Prop :=
  ∀ ys zs, List.Forall₂ R xs zs → ys.Perm zs →
    (arranged plain ys).map text = (arranged plain xs).map text

section OrderFree

variable {xs rest : List α}

/-- Some items may come in another way, and the others stay behind them as they are. -/
theorem OrderFree.of_front (hrefl : ∀ a, R a a) (h : OrderFree R plain text xs)
    {as as' ys : List α} (hxs : xs.Perm (as ++ rest)) (has : List.Forall₂ R as as')
    (hys : ys.Perm (as' ++ rest)) :
    (arranged plain ys).map text = (arranged plain xs).map text := by
  have hrest : List.Forall₂ R rest rest := List.forall₂_same.mpr fun a _ => hrefl a
  obtain ⟨zs, hzs, hperm⟩ := List.perm_comp_forall₂ hxs (List.rel_append has hrest)
  exact h ys zs hzs (hys.trans hperm.symm)

/-- Then each item is written alike in whatever way it comes. -/
theorem OrderFree.text_eq (hrefl : ∀ a, R a a) (h : OrderFree R plain text xs) {x x' : α}
    (hx : x ∈ xs) (hx' : R x x') : text x' = text x := by
  obtain ⟨rest, hxs⟩ := (List.singleton_sublist.mpr hx).exists_perm_append
  have hwritten := h.of_front hrefl hxs (.cons hx' .nil) (List.Perm.refl _)
  -- what is written is the same but for its order, and so it is without the other items
  have hitems : (([x'] ++ rest).map text).Perm (([x] ++ rest).map text) :=
    calc ([x'] ++ rest).map text
      _ |>.Perm ((arranged plain ([x'] ++ rest)).map text) :=
        ((arranged_perm plain _).map text).symm
      _ |>.Perm ((arranged plain xs).map text) := .of_eq hwritten
      _ |>.Perm (xs.map text) := (arranged_perm plain xs).map text
      _ |>.Perm (([x] ++ rest).map text) := hxs.map text
  rw [List.map_append, List.map_append, List.perm_append_right_iff] at hitems
  exact List.singleton_perm_singleton.mp hitems

/-- And no item comes out on both sides of one that is written in another way. -/
theorem OrderFree.not_between (hrefl : ∀ a, R a a) (h : OrderFree R plain text xs) {a b : α}
    (hxs : xs.Perm ([a, b] ++ rest)) (hne : text a ≠ text b) (a' a'' b' : α) (ha' : R a a')
    (ha'' : R a a'') (hb' : R b b') (hle : plain a' ≤ plain b') : ¬ plain b' ≤ plain a'' := by
  intro hle'
  -- both ways of the first item put the rest in one order
  have hways : ∀ x, R a x → ∀ ys, ys.Perm (x :: b' :: rest) →
      (arranged plain ys).map text = (arranged plain xs).map text :=
    fun x hx ys hys => h.of_front hrefl hxs (.cons hx (.cons hb' .nil)) hys
  have ha {x : α} (hx : R a x) : text x = text a := h.text_eq hrefl (hxs.mem_iff.mpr (by simp)) hx
  have hb : text b' = text b := h.text_eq hrefl (hxs.mem_iff.mpr (by simp)) hb'
  -- the second item stands on both sides of the first, so their texts are the same
  have hbetween : text b' = text a' :=
    text_eq_of_between (hways a' ha') (hways a'' ha'') ((ha ha'').trans (ha ha').symm)
      List.mem_cons_self hle hle'
  exact hne ((ha ha').symm.trans (hbetween.symm.trans hb))

theorem OrderFree.pairwise_apart (hrefl : ∀ a, R a a) (h : OrderFree R plain text xs) :
    xs.Pairwise (Apart R plain text) := by
  refine List.pairwise_iff_forall_sublist.mpr fun {a b} hab => ?_
  obtain ⟨rest, hxs⟩ := hab.exists_perm_append
  by_cases hsame : text a = text b
  · exact .inl hsame
  · have hswapped : xs.Perm ([b, a] ++ rest) := hxs.trans (List.Perm.swap b a rest)
    exact .inr (ahead_or_ahead hrefl (h.not_between hrefl hxs hsame)
      (h.not_between hrefl hswapped (Ne.symm hsame)))

/-- **When the order in which items come does not show.** In the order of their plain texts items
are written alike, in whatever order and way they come, exactly if each item is written alike in
whatever way it comes and all of them keep apart. -/
theorem orderFree_iff (hrefl : ∀ a, R a a) : OrderFree R plain text xs ↔
    (∀ x ∈ xs, ∀ x', R x x' → text x' = text x) ∧ xs.Pairwise (Apart R plain text) := by
  constructor
  · exact fun h => ⟨fun _ hx _ hx' => h.text_eq hrefl hx hx', h.pairwise_apart hrefl⟩
  · rintro ⟨htext, hapart⟩ ys zs hzs hperm
    exact map_arranged_eq hrefl htext hapart hzs hperm

end OrderFree

end Apart

end Arranged

end Json

end BoundSql
