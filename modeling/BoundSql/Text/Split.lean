/-!
# Splitting a text at separators

`splitBy` cuts a list of characters at every separator and keeps the pieces in between, the empty
ones included: a text with `n` separators has `n + 1` pieces.
-/

namespace BoundSql.Text

/-- The pieces between separators. -/
def splitBy (isSeparator : Char → Bool) : List Char → List (List Char)
  | [] => [[]]
  | c :: cs =>
    if isSeparator c then [] :: splitBy isSeparator cs
    else match splitBy isSeparator cs with
      | [] => [[c]]
      | piece :: pieces => (c :: piece) :: pieces

theorem splitBy_ne_nil (p : Char → Bool) (cs : List Char) : splitBy p cs ≠ [] := by
  cases cs with
  | nil => simp [splitBy]
  | cons c cs =>
    unfold splitBy
    split
    · simp
    · split <;> simp

/-- A text without separators is one piece. -/
theorem splitBy_of_none {p : Char → Bool} {cs : List Char} (h : ∀ c ∈ cs, p c = false) :
    splitBy p cs = [cs] := by
  induction cs with
  | nil => rfl
  | cons c cs ih => simp_all [splitBy]

end BoundSql.Text
