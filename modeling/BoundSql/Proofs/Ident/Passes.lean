import BoundSql.Text.Blank
import BoundSql.Proofs.Ident
import BoundSql.Proofs.Text.Pieces

/-!
# The words of a name in passes

The words of a name can be had by substitutions, each going over the whole text from left to right
and looking at no character twice: a space goes between a small letter or digit and a capital
(`splitSmallCapital`), then between a capital and a capital with a small letter behind it
(`splitCapitals`), and at last one in place of every run of other characters (`blankRuns`). What
stands between the blanks of that text are the words.

That a substitution goes on behind what it has matched could make it miss a place to break. It never
does: the last character of a match is not one that the next match could begin with. So each pass
can be taken one character at a time, and both together are the one scan of `Ident.spaced`.

* `Ident.splitCapitals_splitSmallCapital` — the first two passes are one scan;
* `Ident.pieces_blankRuns` — the third one moves no word boundary;
* `Ident.words_eq_passes` — the words of a name.
-/

namespace BoundSql.Ident

open Text

/-! ### Between small letters and capitals -/

/-- A space between a small letter or digit and a capital, wherever one is found next. -/
def splitSmallCapital : List Char → List Char
  | a :: b :: rest =>
    if isSmall a && b.isUpper then a :: ' ' :: b :: splitSmallCapital rest
    else a :: splitSmallCapital (b :: rest)
  | cs => cs

theorem splitSmallCapital_cons_of_not_isSmall {b : Char} (h : isSmall b = false)
    (rest : List Char) : splitSmallCapital (b :: rest) = b :: splitSmallCapital rest := by
  cases rest with
  | nil => rfl
  | cons c rest => rw [splitSmallCapital, h, Bool.false_and, if_neg Bool.false_ne_true]

theorem head?_splitSmallCapital (cs : List Char) : (splitSmallCapital cs).head? = cs.head? := by
  cases cs with
  | nil => rfl
  | cons a cs =>
    cases cs with
    | nil => rfl
    | cons b rest =>
      rw [splitSmallCapital]
      split <;> rfl

/-- **One character at a time**: the capital of a match is no small letter, so no match that begins
with it is missed. -/
theorem splitSmallCapital_cons_cons (a b : Char) (rest : List Char) :
    splitSmallCapital (a :: b :: rest) =
      if isSmall a && b.isUpper then a :: ' ' :: splitSmallCapital (b :: rest)
      else a :: splitSmallCapital (b :: rest) := by
  rw [splitSmallCapital]
  refine if_ctx_congr Iff.rfl (fun h => ?_) fun _ => rfl
  have hupper : b.isUpper = true := (Bool.and_eq_true_iff.mp h).2
  rw [splitSmallCapital_cons_of_not_isSmall (not_isSmall_of_isUpper hupper)]

/-! ### Between capitals -/

/-- A space between a capital and another one with a small letter behind it, wherever these three
are found next. -/
def splitCapitals : List Char → List Char
  | a :: b :: c :: rest =>
    if a.isUpper && b.isUpper && c.isLower then a :: ' ' :: b :: c :: splitCapitals rest
    else a :: splitCapitals (b :: c :: rest)
  | cs => cs

/-- Whether a text begins with a capital and a small letter. -/
def startsCapitalized : List Char → Bool
  | [] => false
  | b :: rest => b.isUpper && (rest.head?.map Char.isLower).getD false

theorem splitCapitals_cons_of_not_isUpper {a : Char} (h : a.isUpper = false) (cs : List Char) :
    splitCapitals (a :: cs) = a :: splitCapitals cs := by
  cases cs with
  | nil => rfl
  | cons b cs =>
    cases cs with
    | nil => rfl
    | cons c rest =>
      rw [splitCapitals, h, Bool.false_and, Bool.false_and, if_neg Bool.false_ne_true]

/-- **One character at a time**: the second capital of a match has a small letter behind it and the
small letter is no capital, so no match that begins with either is missed. -/
theorem splitCapitals_cons (a : Char) (cs : List Char) :
    splitCapitals (a :: cs) =
      if a.isUpper && startsCapitalized cs then a :: ' ' :: splitCapitals cs
      else a :: splitCapitals cs := by
  cases cs with
  | nil => simp [splitCapitals, startsCapitalized]
  | cons b cs =>
    cases cs with
    | nil => simp [splitCapitals, startsCapitalized]
    | cons c rest =>
      have hstarts : (a.isUpper && startsCapitalized (b :: c :: rest)) =
          (a.isUpper && b.isUpper && c.isLower) := (Bool.and_assoc _ _ _).symm
      rw [splitCapitals, hstarts]
      refine if_ctx_congr Iff.rfl (fun h => ?_) fun _ => rfl
      -- a match: the third character is small, so no match begins with it
      have hlower : c.isLower = true := (Bool.and_eq_true_iff.mp h).2
      have hc : c.isUpper = false := not_isUpper_of_isSmall (by rw [isSmall, hlower, Bool.true_or])
      have hbehind : splitCapitals (b :: c :: rest) = b :: splitCapitals (c :: rest) := by
        cases rest with
        | nil => rfl
        | cons d rest =>
          rw [splitCapitals, hc, Bool.and_false, Bool.false_and, if_neg Bool.false_ne_true]
      rw [hbehind, splitCapitals_cons_of_not_isUpper hc]

/-- The first pass puts nothing behind a capital. -/
theorem startsCapitalized_splitSmallCapital (cs : List Char) :
    startsCapitalized (splitSmallCapital cs) = startsCapitalized cs := by
  cases cs with
  | nil => rfl
  | cons b rest =>
    -- behind a capital the pass puts no space, so the second character stays where it is
    cases hupper : b.isUpper with
    | true =>
      rw [splitSmallCapital_cons_of_not_isSmall (not_isSmall_of_isUpper hupper), startsCapitalized,
        startsCapitalized, head?_splitSmallCapital]
    | false =>
      obtain ⟨behind, hbehind⟩ : ∃ behind, splitSmallCapital (b :: rest) = b :: behind :=
        List.head?_eq_some_iff.mp (head?_splitSmallCapital (b :: rest))
      rw [hbehind, startsCapitalized, startsCapitalized, hupper, Bool.false_and, Bool.false_and]

/-- **The first two passes** are one scan: the second one meets a space of the first only between
a small letter or digit and a capital, where it would not put one itself. -/
theorem splitCapitals_splitSmallCapital (cs : List Char) :
    splitCapitals (splitSmallCapital cs) = spaced cs := by
  induction cs with
  | nil => rfl
  | cons a cs ih =>
    cases cs with
    | nil => rfl
    | cons b rest =>
      rw [splitSmallCapital_cons_cons, spaced]
      cases hboth : isSmall a && b.isUpper with
      | true =>
        -- the first pass puts a space here, and the second puts none beside it
        obtain ⟨ha, hb⟩ := Bool.and_eq_true_iff.mp hboth
        have hbreak : breaksBetween a b rest = true := by
          rw [breaksBetween, hb, ← isSmall, ha, Bool.true_or, Bool.true_and]
        have hspace : splitCapitals (' ' :: splitSmallCapital (b :: rest)) =
            ' ' :: splitCapitals (splitSmallCapital (b :: rest)) :=
          splitCapitals_cons_of_not_isUpper rfl _
        rw [if_pos rfl, if_pos hbreak,
          splitCapitals_cons_of_not_isUpper (not_isUpper_of_isSmall ha), hspace, ih]
      | false =>
        -- the first pass puts none, so the second one sees the next two characters
        have hbreak : breaksBetween a b rest =
            (a.isUpper && startsCapitalized (splitSmallCapital (b :: rest))) := by
          rw [startsCapitalized_splitSmallCapital, breaksBetween, ← isSmall, startsCapitalized]
          cases hb : b.isUpper with
          | true =>
            rw [hb, Bool.and_true] at hboth
            rw [hboth, Bool.false_or, Bool.true_and, Bool.true_and]
          | false => rw [Bool.false_and, Bool.false_and, Bool.and_false]
        rw [if_neg Bool.false_ne_true, splitCapitals_cons, hbreak, ih]

/-! ### Runs of other characters -/

/-- One space in place of each run of characters that are no letters or digits. -/
def blankRuns : List Char → List Char
  | [] => []
  | c :: cs =>
    if c.isAlphanum then c :: blankRuns cs
    -- a run is written where it ends
    else if (cs.head?.map Char.isAlphanum).getD true then ' ' :: blankRuns cs
    else blankRuns cs

theorem mem_blankRuns {cs : List Char} {c : Char} (h : c ∈ blankRuns cs) :
    c = ' ' ∨ c.isAlphanum = true := by
  induction cs with
  | nil => cases h
  | cons d cs ih =>
    rw [blankRuns] at h
    -- letters and digits stay, of any other characters one space may
    split at h
    case isTrue hd =>
      rcases List.mem_cons.mp h with rfl | h
      · exact .inr hd
      · exact ih h
    case isFalse hd =>
      split at h
      · rcases List.mem_cons.mp h with rfl | h
        · exact .inl rfl
        · exact ih h
      · exact ih h

/-- **The pieces between other characters** are the same when their runs have become spaces. -/
theorem pieces_blankRuns (front cs : List Char) :
    pieces (fun c => !c.isAlphanum) (front ++ blankRuns cs) =
      pieces (fun c => !c.isAlphanum) (front ++ cs) := by
  induction cs generalizing front with
  | nil => rfl
  | cons c cs ih =>
    rw [blankRuns]
    split
    case isTrue hc =>
      rw [List.append_cons, ih, ← List.append_cons]
    case isFalse hc =>
      have hc : (!c.isAlphanum) = true := by rw [eq_false_of_ne_true hc, Bool.not_false]
      split
      case isTrue =>
        have hbehind : pieces (fun c => !c.isAlphanum) (blankRuns cs) = _ := ih []
        rw [pieces_append_cons rfl, pieces_append_cons hc, hbehind, List.nil_append]
      case isFalse hnext =>
        -- the run goes on, so the next character would end the piece in front of it as well
        cases cs with
        | nil => exact absurd rfl hnext
        | cons d cs =>
          have hd : (!d.isAlphanum) = true := by simpa using hnext
          rw [ih, pieces_append_cons hd, pieces_append_cons hc, pieces_cons_of_separator hd]

/-! ### The words -/

theorem not_isBlank_of_isAlphanum {c : Char} (h : c.isAlphanum = true) : isBlank c = false := by
  rw [isAlphanum_eq, Bool.or_eq_true, isUpper_iff, isSmall_iff] at h
  have hrange : 48 ≤ c.toNat ∧ c.toNat ≤ 122 := by omega
  simp only [isBlank, isWhiteSpace, Bool.or_eq_false_iff, Bool.and_eq_false_iff,
    decide_eq_false_iff_not, beq_eq_false_iff_ne]
  omega

/-- **The words of a name** are what stands between the blanks when the passes have gone over it. -/
theorem words_eq_passes (name : List Char) :
    words name = pieces isBlank (blankRuns (splitCapitals (splitSmallCapital name))) := by
  have hblank : ∀ c ∈ blankRuns (spaced name), isBlank c = !c.isAlphanum := by
    intro c hc
    rcases mem_blankRuns hc with rfl | hc
    · rfl
    · rw [not_isBlank_of_isAlphanum hc, hc, Bool.not_true]
  rw [splitCapitals_splitSmallCapital, pieces_congr hblank]
  exact (pieces_blankRuns [] (spaced name)).symm

end BoundSql.Ident
