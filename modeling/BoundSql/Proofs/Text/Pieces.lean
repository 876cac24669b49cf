import BoundSql.Text.Split
import Mathlib.Data.List.Basic

/-!
# The pieces of a text

The pieces of a text are what is left between its separators, empty ones aside. All that is known of
them follows from one equation: a text with a separator in it has the pieces in front of the
separator and those behind it (`pieces_append_cons`).

* `flatten_pieces` — the pieces of a text, one behind the other, are its characters without the
  separators;
* `pieces_intercalate` — pieces with a separator between each and the next are found again.
-/

namespace BoundSql.Text

variable {p : Char → Bool}

/-- The pieces of a text between separators, those that are not empty. -/
def pieces (p : Char → Bool) (cs : List Char) : List (List Char) :=
  (splitBy p cs).filter (!·.isEmpty)

theorem splitBy_cons_of_not {c : Char} (hc : p c = false) (cs : List Char) :
    ∃ first rest, splitBy p cs = first :: rest ∧ splitBy p (c :: cs) = (c :: first) :: rest := by
  obtain ⟨first, rest, h⟩ := List.exists_cons_of_ne_nil (splitBy_ne_nil p cs)
  refine ⟨first, rest, h, ?_⟩
  rw [splitBy, if_neg (by simp [hc]), h]

/-- **A separator** ends what is in front of it, wherever that is split itself. -/
theorem splitBy_append_separator {c : Char} (hc : p c = true) (a b : List Char) :
    splitBy p (a ++ c :: b) = splitBy p a ++ splitBy p b := by
  induction a with
  | nil => exact if_pos hc
  | cons x a ih =>
    rw [List.cons_append]
    cases hx : p x with
    | true => rw [splitBy, if_pos hx, ih, splitBy, if_pos hx, List.cons_append]
    | false =>
      -- the character goes to the first piece, which is the same with and without what is behind
      obtain ⟨first, rest, ha, hxa⟩ := splitBy_cons_of_not hx a
      obtain ⟨first', rest', hab, hxab⟩ := splitBy_cons_of_not hx (a ++ c :: b)
      rw [ih, ha, List.cons_append] at hab
      obtain ⟨rfl, rfl⟩ := List.cons.inj hab
      rw [hxab, hxa, List.cons_append]

/-- **A text with a separator in it** has the pieces in front of it and those behind it. -/
theorem pieces_append_cons {c : Char} (hc : p c = true) (a b : List Char) :
    pieces p (a ++ c :: b) = pieces p a ++ pieces p b := by
  rw [pieces, splitBy_append_separator hc, List.filter_append]
  rfl

/-- A separator in front belongs to no piece. -/
theorem pieces_cons_of_separator {c : Char} (hc : p c = true) (cs : List Char) :
    pieces p (c :: cs) = pieces p cs :=
  pieces_append_cons hc [] cs

/-- A text without separators is one piece, unless it is empty. -/
theorem pieces_of_none {cs : List Char} (hne : cs ≠ []) (h : ∀ c ∈ cs, p c = false) :
    pieces p cs = [cs] := by
  rw [pieces, splitBy_of_none h]
  simp [hne]

/-- Which characters separate matters only for those of the text. -/
theorem pieces_congr {q : Char → Bool} {cs : List Char} (h : ∀ c ∈ cs, p c = q c) :
    pieces p cs = pieces q cs := by
  have hsplit : splitBy p cs = splitBy q cs := by
    induction cs with
    | nil => rfl
    | cons c cs ih =>
      obtain ⟨hc, hcs⟩ := List.forall_mem_cons.mp h
      rw [splitBy, splitBy, hc, ih hcs]
  rw [pieces, hsplit, pieces]

/-- **The pieces of a text** are its characters without the separators, in order. -/
theorem flatten_pieces (p : Char → Bool) (cs : List Char) :
    (pieces p cs).flatten = cs.filter fun c => !p c := by
  rw [pieces, List.flatten_filter_not_isEmpty]
  induction cs with
  | nil => rfl
  | cons c cs ih =>
    cases hc : p c with
    | true =>
      rw [splitBy, if_pos hc, List.flatten_cons, List.nil_append, ih,
        List.filter_cons_of_neg (by simp [hc])]
    | false =>
      -- any other character is put in front of the first piece
      obtain ⟨first, rest, hcs, hccs⟩ := splitBy_cons_of_not hc cs
      rw [hcs] at ih
      rw [hccs, List.flatten_cons, List.cons_append, ← List.flatten_cons, ih,
        List.filter_cons_of_pos (by simp [hc])]

/-- **Pieces with a separator between each and the next** are the pieces of the text so made. -/
theorem pieces_intercalate {c : Char} (hc : p c = true) {parts : List (List Char)}
    (h : ∀ part ∈ parts, part ≠ [] ∧ ∀ c ∈ part, p c = false) :
    pieces p ([c].intercalate parts) = parts := by
  induction parts with
  | nil => rfl
  | cons part parts ih =>
    obtain ⟨⟨hne, hnone⟩, hparts⟩ := List.forall_mem_cons.mp h
    cases parts with
    | nil => rw [List.intercalate_singleton, pieces_of_none hne hnone]
    | cons next parts =>
      rw [List.intercalate_cons_cons, List.append_assoc, List.singleton_append,
        pieces_append_cons hc, pieces_of_none hne hnone, ih hparts, List.singleton_append]

end BoundSql.Text
