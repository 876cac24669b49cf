/-!
# Similar words

How alike two words are, after Ratcliff and Obershelp: take the longest run of characters that the
words share, then do the same to the left and to the right of it; the matched characters, counted
in both words, over all characters is the ratio. In a long reference word the very frequent
characters do not start a run (they may still extend one).

`closeMatches` picks from a list of candidates the few that are most alike to a word.
-/

namespace BoundSql.Text

/-- A run shared by two words: where it starts in each, and its length. -/
structure SharedRun where
  left : Nat
  right : Nat
  size : Nat

/-- The lengths of the runs that end at `c` and at each character of `b`, from those that end one
character earlier. -/
def runRow (rare : Char → Bool) (c : Char) : List Char → List Nat → Nat → List Nat
  | [], _, _ => []
  | d :: b, above, diagonal =>
    (if d = c && rare d then diagonal + 1 else 0) ::
      runRow rare c b above.tail (above.head?.getD 0)

/-- The first run of a row that is longer than the best one so far, and so on along the row. `i` is
the position of the row's character and `j` that of the next entry. -/
def bestInRow (i : Nat) : Nat → List Nat → SharedRun → SharedRun
  | _, [], best => best
  | j, k :: row, best =>
    bestInRow i (j + 1) row (if best.size < k then ⟨i + 1 - k, j + 1 - k, k⟩ else best)

/-- The longest run shared by the words, the earliest of equally long ones. -/
def longestFrom (rare : Char → Bool) (b : List Char) :
    Nat → List Char → List Nat → SharedRun → SharedRun
  | _, [], _, best => best
  | i, c :: a, above, best =>
    let row := runRow rare c b above 0
    longestFrom rare b (i + 1) a row (bestInRow i 0 row best)

/-- The length of the common beginning of two words. -/
def commonLength : List Char → List Char → Nat
  | c :: a, d :: b => if c = d then commonLength a b + 1 else 0
  | _, _ => 0

/-- The longest run of rare characters, extended both ways as far as the words agree. -/
def sharedRun (rare : Char → Bool) (a b : List Char) : SharedRun :=
  let core := longestFrom rare b 0 a [] ⟨0, 0, 0⟩
  let before := commonLength (a.take core.left).reverse (b.take core.right).reverse
  let after := commonLength (a.drop (core.left + core.size)) (b.drop (core.right + core.size))
  ⟨core.left - before, core.right - before, before + core.size + after⟩

/-- How many characters of `a` are matched with characters of `b`. -/
def matchedLength (rare : Char → Bool) (a b : List Char) : Nat :=
  match sharedRun rare a b with
  | ⟨i, j, k⟩ =>
    if _h : 0 < k ∧ i + k ≤ a.length then
      k + matchedLength rare (a.take i) (b.take j) +
        matchedLength rare (a.drop (i + k)) (b.drop (j + k))
    else 0
termination_by a.length
decreasing_by
  · simp only [List.length_take]; omega
  · simp only [List.length_drop]; omega

/-- Whether a character may start a run: in a word of 200 characters or more it must not make up
more than a hundredth of the word, rounded down, plus one. -/
def isRareIn (b : List Char) (c : Char) : Bool :=
  b.length < 200 || b.count c ≤ b.length / 100 + 1

/-- A ratio of likeness, as numerator and positive denominator. -/
structure Likeness where
  num : Nat
  den : Nat

/-- Twice the matched characters over all characters; two empty words are wholly alike. -/
def likeness (a b : String) : Likeness :=
  let total := a.toList.length + b.toList.length
  if total = 0 then ⟨1, 1⟩
  else ⟨2 * matchedLength (isRareIn b.toList) a.toList b.toList, total⟩

/-- Whether the ratio is at least three fifths. -/
def Likeness.isClose (r : Likeness) : Bool := 3 * r.den ≤ 5 * r.num

/-- Whether the first scored word comes before the second: the more alike, then the greater. -/
def ranksBefore (x y : Likeness × String) : Bool :=
  let p := x.1.num * y.1.den
  let q := y.1.num * x.1.den
  q < p || (p == q && !(x.2 < y.2))

/-- The at most three candidates that are close to a word, the closest first. -/
def closeMatches (word : String) (candidates : List String) : List String :=
  let scored := candidates.map fun c => (likeness c word, c)
  (((scored.filter (·.1.isClose)).mergeSort ranksBefore).take 3).map (·.2)

end BoundSql.Text
