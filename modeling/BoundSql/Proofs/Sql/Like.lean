import BoundSql.Proofs.Sql.Term
import Mathlib.Data.List.Forall2
import Mathlib.Data.List.Infix

/-!
# Patterns

In a pattern a percent sign stands for any sequence of characters, an underscore for any one
character, and any other character for itself, up to a folding of case. A text between two percent
signs is found wherever it occurs. It is found elsewhere too if it has wildcards of its own, for
these are not told from the two around it: `a_c` is found in `abc`, and `50%` in `501`.

* `Sql.like_append` — a pattern in two parts matches a content in two parts;
* `Sql.like_anywhere` — what is found between two percent signs is matched by some part;
* `Sql.like_of_occurs` — what occurs is found;
* `Sql.like_iff_occurs` — which texts are found only where they occur.
-/

namespace BoundSql.Sql

/-- Whether a pattern matches a content, for a store that takes characters with the same `fold` for
the same. -/
def like (fold : Char → Char) : List Char → List Char → Bool
  | [], content => content.isEmpty
  | p :: pattern, content =>
    if p = '%' then content.tails.any (like fold pattern)
    else
      match content with
      | [] => false
      | c :: content => (p == '_' || fold p == fold c) && like fold pattern content

/-- The pattern of a text between two percent signs. -/
def anywhere (text : List Char) : List Char := '%' :: (text ++ ['%'])

/-- A text occurs in a content: it is a contiguous part of it, up to the folding. -/
def Occurs (fold : Char → Char) (text content : List Char) : Prop :=
  text.map fold <:+: content.map fold

variable {fold : Char → Char} {p : Char} {pattern text content : List Char}

/-! ### Matching part by part -/

theorem like_percent_cons :
    like fold ('%' :: pattern) content = true ↔
      ∃ rest, rest <:+ content ∧ like fold pattern rest = true := by
  have hlike : like fold ('%' :: pattern) content = content.tails.any (like fold pattern) := rfl
  rw [hlike, List.any_eq_true]
  simp only [List.mem_tails]

theorem like_cons (hp : p ≠ '%') :
    like fold (p :: pattern) content = true ↔
      ∃ c rest, content = c :: rest ∧ (p = '_' ∨ fold p = fold c) ∧
        like fold pattern rest = true := by
  cases content with
  | nil => simp [like, hp]
  | cons c rest => simp [like, hp]

/-- **A pattern in two parts** matches the contents in two parts, the first of them matched by its
first part and the second by its second. -/
theorem like_append (pattern behind : List Char) :
    like fold (pattern ++ behind) content = true ↔
      ∃ front back, content = front ++ back ∧ like fold pattern front = true ∧
        like fold behind back = true := by
  induction pattern generalizing content with
  | nil => simp [like]
  | cons p pattern ih =>
    by_cases hp : p = '%'
    · subst hp
      rw [List.cons_append, like_percent_cons]
      constructor
      · -- what the percent sign stands for is in front of the first part
        rintro ⟨rest, ⟨any, rfl⟩, hrest⟩
        obtain ⟨front, back, rfl, hfront, hback⟩ := ih.mp hrest
        refine ⟨any ++ front, back, (List.append_assoc ..).symm, ?_, hback⟩
        exact like_percent_cons.mpr ⟨front, List.suffix_append any front, hfront⟩
      · rintro ⟨front, back, rfl, hfront, hback⟩
        obtain ⟨rest, ⟨any, rfl⟩, hrest⟩ := like_percent_cons.mp hfront
        refine ⟨rest ++ back, ⟨any, (List.append_assoc ..).symm⟩, ?_⟩
        exact ih.mpr ⟨rest, back, rfl, hrest, hback⟩
    · -- any other character stands for one character, which stays in the first part
      rw [List.cons_append, like_cons hp]
      constructor
      · rintro ⟨c, rest, rfl, hc, hrest⟩
        obtain ⟨front, back, rfl, hfront, hback⟩ := ih.mp hrest
        exact ⟨c :: front, back, rfl, (like_cons hp).mpr ⟨c, front, rfl, hc, hfront⟩, hback⟩
      · rintro ⟨front, back, rfl, hfront, hback⟩
        obtain ⟨c, rest, rfl, hc, hrest⟩ := (like_cons hp).mp hfront
        exact ⟨c, rest ++ back, rfl, hc, ih.mpr ⟨rest, back, rfl, hrest, hback⟩⟩

/-- A percent sign alone matches everything. -/
theorem like_percent (content : List Char) : like fold ['%'] content = true :=
  like_percent_cons.mpr ⟨[], List.nil_suffix, rfl⟩

/-- **Between two percent signs** a pattern matches the contents of which it matches some part. -/
theorem like_anywhere :
    like fold (anywhere text) content = true ↔
      ∃ part, part <:+: content ∧ like fold text part = true := by
  rw [anywhere, like_percent_cons]
  constructor
  · rintro ⟨rest, hrest, hlike⟩
    obtain ⟨part, back, rfl, hpart, -⟩ := (like_append text ['%']).mp hlike
    exact ⟨part, (List.prefix_append part back).isInfix.trans hrest.isInfix, hpart⟩
  · rintro ⟨part, ⟨front, back, rfl⟩, hpart⟩
    refine ⟨part ++ back, ⟨front, (List.append_assoc ..).symm⟩, ?_⟩
    exact (like_append text ['%']).mpr ⟨part, back, rfl, hpart, like_percent back⟩

/-! ### Texts that occur -/

/-- A pattern matches what it matches character by character, its wildcards standing for one
character each. -/
theorem like_of_forall₂
    (h : List.Forall₂ (fun p c => p = '%' ∨ p = '_' ∨ fold p = fold c) pattern content) :
    like fold pattern content = true := by
  induction h with
  | nil => rfl
  | @cons p c pattern content hpc _ ih =>
    by_cases hp : p = '%'
    · subst hp
      exact like_percent_cons.mpr ⟨content, List.suffix_cons c content, ih⟩
    · exact (like_cons hp).mpr ⟨c, content, rfl, hpc.resolve_left hp, ih⟩

theorem occurs_iff :
    Occurs fold text content ↔ ∃ part, part <:+: content ∧ part.map fold = text.map fold := by
  rw [Occurs, List.infix_map_iff]
  simp only [eq_comm]

/-- **What occurs is found**, whatever characters it has. -/
theorem like_of_occurs (h : Occurs fold text content) :
    like fold (anywhere text) content = true := by
  obtain ⟨part, hpart, heq⟩ := occurs_iff.mp h
  refine like_anywhere.mpr ⟨part, hpart, like_of_forall₂ ?_⟩
  have hsame : List.Forall₂ (· = ·) (text.map fold) (part.map fold) := by
    rw [List.forall₂_eq_eq_eq]
    exact heq.symm
  rw [List.forall₂_map_left_iff, List.forall₂_map_right_iff] at hsame
  exact hsame.imp fun _ _ hpc => .inr (.inr hpc)

/-! ### Texts without wildcards -/

/-- A pattern without wildcards matches itself and nothing else, up to the folding. -/
theorem like_iff_of_plain (hpercent : '%' ∉ pattern) (hunderscore : '_' ∉ pattern) :
    like fold pattern content = true ↔ content.map fold = pattern.map fold := by
  induction pattern generalizing content with
  | nil => simp [like]
  | cons p pattern ih =>
    rw [List.mem_cons, not_or] at hpercent hunderscore
    have hp : p ≠ '_' := Ne.symm hunderscore.1
    rw [like_cons (Ne.symm hpercent.1), List.map_cons, List.map_eq_cons_iff]
    simp only [or_iff_right hp, ih hpercent.2 hunderscore.2, eq_comm (a := fold p)]

/-- A pattern matches what is left of it without its percent signs. -/
theorem like_filter (pattern : List Char) :
    like fold pattern (pattern.filter (· ≠ '%')) = true := by
  induction pattern with
  | nil => rfl
  | cons p pattern ih =>
    by_cases hp : p = '%'
    · subst hp
      exact like_percent_cons.mpr ⟨_, List.suffix_refl _, ih⟩
    · rw [List.filter_cons_of_pos (by simpa using hp)]
      exact (like_cons hp).mpr ⟨p, _, rfl, .inr rfl, ih⟩

/-- **Which texts are found only where they occur**: those without wildcards, for a store that does
not take all characters for the same. -/
theorem like_iff_occurs (hfold : ∃ x, fold x ≠ fold '_') :
    (∀ content, like fold (anywhere text) content = true ↔ Occurs fold text content) ↔
      '%' ∉ text ∧ '_' ∉ text := by
  constructor
  · intro h
    have hexact : ∀ part, like fold text part = true → Occurs fold text part := by
      intro part hpart
      exact (h part).mp (like_anywhere.mpr ⟨part, List.infix_rfl, hpart⟩)
    constructor
    · -- without its percent signs the text is too short to occur in
      intro hpercent
      have hlength := (hexact _ (like_filter text)).length_le
      rw [List.length_map, List.length_map] at hlength
      have hshorter : (text.filter (· ≠ '%')).length < text.length := by
        rw [List.length_filter_lt_length_iff_exists]
        exact ⟨'%', hpercent, by simp⟩
      omega
    · -- with another character for the underscores it is as long as the text, but not the same
      intro hunderscore
      obtain ⟨x, hx⟩ := hfold
      have hlike : like fold text (text.map fun c => if c = '_' then x else c) = true := by
        refine like_of_forall₂ ?_
        rw [List.forall₂_map_right_iff, List.forall₂_same]
        intro c _
        by_cases hc : c = '_'
        · exact .inr (.inl hc)
        · exact .inr (.inr (by rw [if_neg hc]))
      have heq := (hexact _ hlike).eq_of_length (by simp)
      rw [List.map_map, List.map_inj_left] at heq
      exact hx (heq '_' hunderscore).symm
  · rintro ⟨hpercent, hunderscore⟩ content
    rw [like_anywhere, occurs_iff]
    simp only [like_iff_of_plain hpercent hunderscore]

/-- A text with an underscore is found where it does not occur. -/
example : like id (anywhere "a_c".toList) "xabcx".toList = true := by decide

end BoundSql.Sql
