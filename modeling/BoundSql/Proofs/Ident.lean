import BoundSql.Ident

/-!
# The letters of column names

A column name is made of words: whatever name it stands for, it holds ASCII letters, digits and
underscores only.

* `Text.not_isSeparator_of_mem_splitBy` — the pieces of a text hold none of its separators;
* `Ident.isWord_of_mem_words` — the words of a name;
* `Ident.mem_snakeCase` — the characters of a column name.
-/

namespace BoundSql

/-- **The pieces of a text** hold none of its separators. -/
theorem Text.not_isSeparator_of_mem_splitBy {p : Char → Bool} {cs piece : List Char}
    (h : piece ∈ splitBy p cs) : ∀ c ∈ piece, p c = false := by
  induction cs generalizing piece with
  | nil =>
    rw [splitBy, List.mem_singleton] at h
    subst h
    exact List.forall_mem_nil _
  | cons c cs ih =>
    rw [splitBy] at h
    -- a separator starts a new piece, any other character joins the first one
    split at h
    · rcases List.mem_cons.mp h with rfl | h
      · exact List.forall_mem_nil _
      · exact ih h
    · rename_i hc
      split at h
      · rw [List.mem_singleton] at h
        subst h
        exact List.forall_mem_cons.mpr ⟨by simpa using hc, List.forall_mem_nil _⟩
      · rename_i first pieces hpieces
        have hbehind : ∀ piece ∈ first :: pieces, ∀ c ∈ piece, p c = false :=
          fun piece hpiece => ih (hpieces ▸ hpiece)
        rcases List.mem_cons.mp h with rfl | h
        · exact List.forall_mem_cons.mpr ⟨by simpa using hc, hbehind first List.mem_cons_self⟩
        · exact hbehind piece (List.mem_cons_of_mem _ h)

namespace Ident

/-! ### Capitals and their lower case -/

theorem isUpper_iff {c : Char} : c.isUpper = true ↔ 65 ≤ c.toNat ∧ c.toNat ≤ 90 :=
  decide_eq_true_iff

theorem isLower_iff {c : Char} : c.isLower = true ↔ 97 ≤ c.toNat ∧ c.toNat ≤ 122 :=
  Bool.and_eq_true_iff.trans (and_congr decide_eq_true_iff decide_eq_true_iff)

theorem toNat_toLower {c : Char} (h : c.isUpper = true) : c.toLower.toNat = c.toNat + 32 := by
  have hrange : 65 ≤ c.toNat ∧ c.toNat ≤ 90 := isUpper_iff.mp h
  have hval : c.toLower.val = c.val + 32 := congrArg Char.val (dif_pos hrange)
  have hsum : (c.val + 32).toNat = (c.toNat + 32) % 2 ^ 32 := UInt32.toNat_add _ _
  rw [Char.toNat, hval, hsum, Nat.mod_eq_of_lt (by omega)]

theorem isLower_toLower {c : Char} (h : c.isUpper = true) : c.toLower.isLower = true := by
  have hrange : 65 ≤ c.toNat ∧ c.toNat ≤ 90 := isUpper_iff.mp h
  rw [isLower_iff, toNat_toLower h]
  omega

/-- What is no capital is its own lower case. -/
theorem toLower_of_not_isUpper {c : Char} (h : c.isUpper = false) : c.toLower = c := by
  have hrange : ¬ (65 ≤ c.toNat ∧ c.toNat ≤ 90) := by
    rw [← isUpper_iff, h]
    exact Bool.false_ne_true
  exact dif_neg hrange

/-! ### Small letters and digits -/

/-- A small ASCII letter or a digit. -/
def isSmall (c : Char) : Bool := c.isLower || c.isDigit

theorem isSmall_iff {c : Char} :
    isSmall c = true ↔ (97 ≤ c.toNat ∧ c.toNat ≤ 122) ∨ (48 ≤ c.toNat ∧ c.toNat ≤ 57) := by
  rw [isSmall, Bool.or_eq_true, isLower_iff]
  exact or_congr Iff.rfl Char.isDigit_iff_toNat

/-- Capitals, small letters and digits are three classes. -/
theorem not_isUpper_of_isSmall {c : Char} (h : isSmall c = true) : c.isUpper = false := by
  rw [isSmall_iff] at h
  rw [← Bool.not_eq_true, isUpper_iff]
  omega

theorem not_isSmall_of_isUpper {c : Char} (h : c.isUpper = true) : isSmall c = false := by
  rw [← Bool.not_eq_true]
  intro hsmall
  cases h.symm.trans (not_isUpper_of_isSmall hsmall)

theorem isAlphanum_eq (c : Char) : c.isAlphanum = (c.isUpper || isSmall c) :=
  Bool.or_assoc _ _ _

theorem isAlphanum_of_isSmall {c : Char} (h : isSmall c = true) : c.isAlphanum = true := by
  rw [isAlphanum_eq, h, Bool.or_true]

theorem toLower_of_isSmall {c : Char} (h : isSmall c = true) : c.toLower = c :=
  toLower_of_not_isUpper (not_isUpper_of_isSmall h)

/-- A letter or digit in lower case is a small letter or a digit. -/
theorem isSmall_toLower {c : Char} (h : c.isAlphanum = true) : isSmall c.toLower = true := by
  cases hupper : c.isUpper with
  | true => rw [isSmall, isLower_toLower hupper, Bool.true_or]
  | false =>
    rw [isAlphanum_eq, hupper, Bool.false_or] at h
    rw [toLower_of_isSmall h, h]

/-! ### Words -/

/-- A word of a column name: small letters and digits, and at least one of them. -/
def IsWord (w : List Char) : Prop := w ≠ [] ∧ ∀ c ∈ w, isSmall c = true

instance : DecidablePred IsWord := fun w =>
  decidable_of_iff ((!w.isEmpty && w.all isSmall) = true) (by simp [IsWord])

/-- **The words of a name** are words when they have been made small. -/
theorem isWord_of_mem_words {name w : List Char} (h : w ∈ (words name).map (·.map Char.toLower)) :
    IsWord w := by
  obtain ⟨word, hword, rfl⟩ := List.mem_map.mp h
  obtain ⟨hpiece, hne⟩ := List.mem_filter.mp hword
  refine ⟨by simpa using hne, ?_⟩
  intro c hc
  obtain ⟨d, hd, rfl⟩ := List.mem_map.mp hc
  have hletter : d.isAlphanum = true := by
    simpa using Text.not_isSeparator_of_mem_splitBy hpiece d hd
  exact isSmall_toLower hletter

/-! ### Column names -/

theorem mem_intercalate {sep : Char} {parts : List (List Char)} {c : Char}
    (h : c ∈ [sep].intercalate parts) : c = sep ∨ ∃ part ∈ parts, c ∈ part := by
  induction parts with
  | nil => exact absurd h List.not_mem_nil
  | cons part parts ih =>
    -- the last part has no separator behind it
    cases parts with
    | nil =>
      rw [List.intercalate_singleton] at h
      exact .inr ⟨part, List.mem_cons_self, h⟩
    | cons next parts =>
      rw [List.intercalate_cons_cons, List.append_assoc, List.mem_append, List.mem_append,
        List.mem_singleton] at h
      rcases h with h | h | h
      · exact .inr ⟨part, List.mem_cons_self, h⟩
      · exact .inl h
      · exact (ih h).imp_right fun ⟨p, hp, hc⟩ => ⟨p, List.mem_cons_of_mem _ hp, hc⟩

/-- **The characters of a column name** are underscores, ASCII letters and digits. -/
theorem mem_snakeCase {name : String} {c : Char} (h : c ∈ (snakeCase name).toList) :
    c = '_' ∨ c.isAlphanum = true := by
  rw [snakeCase, String.toList_ofList, snakeChars] at h
  refine (mem_intercalate h).imp_right ?_
  rintro ⟨word, hword, hc⟩
  exact isAlphanum_of_isSmall ((isWord_of_mem_words hword).2 c hc)

end Ident

end BoundSql
