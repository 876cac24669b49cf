/-!
# Quoting by doubling

SQL writes an identifier between double quotes and a string between single quotes; the quote itself
is written twice inside. `quoteWith` does both.
-/

namespace BoundSql.Text

/-- Writes every occurrence of `q` twice. -/
def double (q : Char) : List Char → List Char
  | [] => []
  | c :: cs => if c = q then q :: q :: double q cs else c :: double q cs

/-- The text between two quotes `q`, with every `q` inside it doubled. -/
def quoteWith (q : Char) (s : String) : String :=
  String.ofList (q :: (double q s.toList ++ [q]))

@[simp] theorem toList_quoteWith (q : Char) (s : String) :
    (quoteWith q s).toList = q :: (double q s.toList ++ [q]) := by
  simp [quoteWith]

/-- A text is known from its doubled form. -/
theorem double_injective (q : Char) : Function.Injective (double q) := by
  intro a b h
  induction a generalizing b with
  | nil =>
    cases b with
    | nil => rfl
    | cons d b => by_cases hd : d = q <;> simp [double, hd] at h
  | cons c a ih =>
    cases b with
    | nil => by_cases hc : c = q <;> simp [double, hc] at h
    | cons d b =>
      -- a doubled quote starts with the quote, and any other character with itself
      by_cases hc : c = q <;> by_cases hd : d = q <;> simp [double, hc, hd] at h
      · rw [hc, hd, ih h]
      · exact absurd h.1.symm hd
      · rw [h.1, ih h.2]

end BoundSql.Text
