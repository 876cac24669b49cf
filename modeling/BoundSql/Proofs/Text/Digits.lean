import BoundSql.Text.Numeral
import Mathlib.Data.List.Basic

/-!
# Decimal digits

A run of digits is taken off a text as far as it goes, so what is taken and what is left are known
from the text: the digits that were written, if none follows. The digits of a number are those of
its usual text. There is at least one, and there are no zeros in front, so they are known from the
number as well.

* `takeDigits_eq_iff` — what is taken off a text;
* `integer?_eq_some_iff` — the texts of whole numbers with an optional sign;
* `ofDigits_digitsOf`, `map_digitChar_digitsOf` — the digits of a number.
-/

namespace BoundSql.Text

/-! ### Runs of digits -/

@[simp] theorem digit?_digitChar (d : Fin 10) : digit? (digitChar d) = some d := by
  revert d
  decide

/-- A character is a digit if it is the character of one. -/
theorem digit?_eq_some_iff {c : Char} {d : Fin 10} : digit? c = some d ↔ c = digitChar d := by
  constructor
  · intro h
    rw [digit?] at h
    split at h
    · rename_i hrange
      obtain rfl := Option.some.inj h
      apply Char.toNat_inj.mp
      -- the ten digits stand one behind the other from 48 on
      have hvalid : ∀ n < 10, (Char.ofNat (48 + n)).toNat = 48 + n := by decide
      show c.toNat = (Char.ofNat (48 + (c.toNat - 48))).toNat
      rw [hvalid _ (by omega)]
      omega
    · cases h
  · rintro rfl
    exact digit?_digitChar d

theorem digitChar_ne {c : Char} (h : digit? c = none) (d : Fin 10) : digitChar d ≠ c := by
  rintro rfl
  rw [digit?_digitChar] at h
  cases h

/-- What is said of the first character is said of what a text starts with. -/
theorem forall_mem_head?_cons {p : Char → Prop} {c : Char} (h : p c) (cs : List Char) :
    ∀ x ∈ (c :: cs).head?, p x := by
  intro x hx
  obtain rfl : c = x := Option.some.inj hx
  exact h

/-- A text that starts with no digit. -/
def NoDigit (cs : List Char) : Prop := ∀ c ∈ cs.head?, digit? c = none

theorem noDigit_nil : NoDigit [] := fun _ h => nomatch h

theorem noDigit_cons {c : Char} (h : digit? c = none) (cs : List Char) : NoDigit (c :: cs) :=
  forall_mem_head?_cons h cs

/-- **A run of digits is taken** as far as it goes. -/
theorem takeDigits_append (ds : List (Fin 10)) {rest : List Char} (h : NoDigit rest) :
    takeDigits (ds.map digitChar ++ rest) = (ds, rest) := by
  induction ds with
  | nil =>
    cases rest with
    | nil => rfl
    | cons c cs => simp [takeDigits, h c rfl]
  | cons d ds ih => simp [takeDigits, ih]

/-- **What is taken off a text** are the digits in front, and no digit is left behind them. -/
theorem takeDigits_eq_iff {cs rest : List Char} {ds : List (Fin 10)} :
    takeDigits cs = (ds, rest) ↔ cs = ds.map digitChar ++ rest ∧ NoDigit rest := by
  constructor
  · intro h
    induction cs generalizing ds with
    | nil =>
      cases h
      exact ⟨rfl, noDigit_nil⟩
    | cons c cs ih =>
      rw [takeDigits] at h
      -- digits are taken off until there is a character that is none
      split at h
      · rename_i d hd
        obtain ⟨rfl, rfl⟩ := Prod.mk.inj h
        obtain ⟨hcs, hrest⟩ := ih (Prod.eta (takeDigits cs)).symm
        exact ⟨by rw [List.map_cons, List.cons_append, ← hcs, digit?_eq_some_iff.mp hd], hrest⟩
      · rename_i hc
        cases h
        exact ⟨rfl, noDigit_cons hc cs⟩
  · rintro ⟨rfl, hrest⟩
    exact takeDigits_append ds hrest

/-- A text of digits alone is taken whole. -/
theorem takeDigits_map (ds : List (Fin 10)) : takeDigits (ds.map digitChar) = (ds, []) := by
  simpa using takeDigits_append ds noDigit_nil

/-! ### Whole numbers with a sign -/

/-- **The texts of whole numbers**: digits, with or without a sign in front. -/
inductive IsInteger : List Char → Int → Prop where
  | plain {ds : List (Fin 10)} (h : ds ≠ []) : IsInteger (ds.map digitChar) (ofDigits ds)
  | plus {ds : List (Fin 10)} (h : ds ≠ []) : IsInteger ('+' :: ds.map digitChar) (ofDigits ds)
  | minus {ds : List (Fin 10)} (h : ds ≠ []) :
    IsInteger ('-' :: ds.map digitChar) (-(ofDigits ds : Int))

/-- No digit is a sign. -/
theorem takeSign_digits {ds : List (Fin 10)} (h : ds ≠ []) (rest : List Char) :
    takeSign (ds.map digitChar ++ rest) = (false, ds.map digitChar ++ rest) := by
  obtain ⟨d, ds, rfl⟩ := List.exists_cons_of_ne_nil h
  rw [List.map_cons, List.cons_append, takeSign]
  · exact fun _ hcs => digitChar_ne (by decide) d (List.cons.inj hcs).1
  · exact fun _ hcs => digitChar_ne (by decide) d (List.cons.inj hcs).1

/-- What is left behind the sign are digits. -/
theorem integer?_eq_of_takeSign {cs : List Char} {negative : Bool} {ds : List (Fin 10)}
    (hds : ds ≠ []) (h : takeSign cs = (negative, ds.map digitChar)) :
    integer? cs = some (if negative then -(ofDigits ds : Int) else ofDigits ds) := by
  obtain ⟨d, ds, rfl⟩ := List.exists_cons_of_ne_nil hds
  rw [integer?, h]
  dsimp only
  rw [takeDigits_map]

/-- **A whole number is read** from its texts and from no others. -/
theorem integer?_eq_some_iff {cs : List Char} {n : Int} :
    integer? cs = some n ↔ IsInteger cs n := by
  constructor
  · intro h
    rw [integer?] at h
    dsimp only at h
    split at h
    · rename_i d ds htake
      obtain ⟨hcs, -⟩ := takeDigits_eq_iff.mp htake
      have hds : d :: ds ≠ [] := List.cons_ne_nil d ds
      rw [List.append_nil] at hcs
      obtain rfl := Option.some.inj h
      -- the sign was taken off before the digits: a minus, a plus or none
      unfold takeSign at hcs ⊢
      split at hcs
      · obtain rfl : _ = (d :: ds).map digitChar := hcs
        exact .minus hds
      · obtain rfl : _ = (d :: ds).map digitChar := hcs
        exact .plus hds
      · obtain rfl : cs = (d :: ds).map digitChar := hcs
        exact .plain hds
    · cases h
  · intro h
    -- each of the three texts has its sign taken off and its digits read
    cases h with
    | @plain ds hds =>
      have hsign := takeSign_digits hds []
      rw [List.append_nil] at hsign
      exact integer?_eq_of_takeSign hds hsign
    | @plus ds hds =>
      have hsign : takeSign ('+' :: ds.map digitChar) = (false, ds.map digitChar) := rfl
      exact integer?_eq_of_takeSign hds hsign
    | @minus ds hds =>
      have hsign : takeSign ('-' :: ds.map digitChar) = (true, ds.map digitChar) := rfl
      exact integer?_eq_of_takeSign hds hsign

/-! ### The digits of a number -/

theorem ofDigits_eq_ofDigitChars (ds : List (Fin 10)) :
    ofDigits ds = Nat.ofDigitChars 10 (ds.map digitChar) 0 := by
  have hdigit : ∀ d : Fin 10, (digitChar d).toNat - '0'.toNat = d.val := by decide
  rw [ofDigits, Nat.ofDigitChars, List.foldl_map]
  simp only [hdigit]

/-- **The digits of a number** are the characters of its usual text. -/
theorem map_digitChar_digitsOf (n : Nat) : (digitsOf n).map digitChar = Nat.toDigits 10 n := by
  have hdigits : ∀ c ∈ Nat.toDigits 10 n, (digit? c).map digitChar = some c := by
    intro c hc
    have hdigit : c.isDigit = true := Nat.isDigit_of_mem_toDigits (by decide) (by decide) hc
    have hrange : 48 ≤ c.toNat ∧ c.toNat ≤ 57 := Char.isDigit_iff_toNat.mp hdigit
    have hd : digit? c = some ⟨c.toNat - 48, by omega⟩ := dif_pos hrange
    rw [hd, Option.map_some, ← digit?_eq_some_iff.mp hd]
  rw [digitsOf, List.map_filterMap, List.filterMap_congr hdigits, List.filterMap_some]

theorem ofDigits_digitsOf (n : Nat) : ofDigits (digitsOf n) = n := by
  rw [ofDigits_eq_ofDigitChars, map_digitChar_digitsOf]
  exact Nat.ofDigitChars_toDigits (by decide) (by decide)

theorem digit?_natDigitChar {n : Nat} (h : n < 10) : digit? n.digitChar = some ⟨n, h⟩ := by
  revert n
  decide

theorem digitsOf_of_lt {n : Nat} (h : n < 10) : digitsOf n = [⟨n, h⟩] := by
  rw [digitsOf, Nat.toDigits_of_lt_base h, List.filterMap_cons, digit?_natDigitChar h]
  rfl

/-- The last digit is what is left of tens, and those in front are the digits of the tens. -/
theorem digitsOf_of_le {n : Nat} (h : 10 ≤ n) :
    digitsOf n = digitsOf (n / 10) ++ [⟨n % 10, Nat.mod_lt n (by decide)⟩] := by
  have hlast : [(n % 10).digitChar].filterMap digit? = [⟨n % 10, Nat.mod_lt n (by decide)⟩] := by
    rw [List.filterMap_cons, digit?_natDigitChar (Nat.mod_lt n (by decide))]
    rfl
  rw [digitsOf, Nat.toDigits_eq_if (by decide), if_neg (by omega), List.filterMap_append, hlast]
  rfl

/-- Digits without a zero in front, unless they are a single one. -/
def isWhole : List (Fin 10) → Bool
  | [] => false
  | [_] => true
  | d :: _ => d != zeroDigit

/-- **There are no zeros in front** of the digits of a number. -/
theorem isWhole_digitsOf (n : Nat) : isWhole (digitsOf n) = true := by
  -- the first digit is that of the tens, as long as there are any
  have hfirst : 0 < n → ∃ d ds, digitsOf n = d :: ds ∧ d ≠ zeroDigit := by
    induction n using Nat.strongRecOn with
    | ind n ih =>
      intro hpos
      rcases Nat.lt_or_ge n 10 with hlt | hge
      · refine ⟨⟨n, hlt⟩, [], digitsOf_of_lt hlt, fun h => ?_⟩
        exact absurd (congrArg Fin.val h) (Nat.ne_of_gt hpos)
      · obtain ⟨d, ds, hds, hd⟩ := ih (n / 10) (by omega) (by omega)
        exact ⟨d, ds ++ [_], by rw [digitsOf_of_le hge, hds, List.cons_append], hd⟩
  rcases Nat.eq_zero_or_pos n with rfl | hpos
  · rfl
  · obtain ⟨d, ds, hds, hd⟩ := hfirst hpos
    rw [hds]
    cases ds with
    | nil => rfl
    | cons d' ds => simpa [isWhole] using hd

/-- Zeros in front do not count. -/
theorem ofDigits_replicate_append (k : Nat) (ds : List (Fin 10)) :
    ofDigits (List.replicate k zeroDigit ++ ds) = ofDigits ds := by
  induction k with
  | zero => rfl
  | succ k ih => exact ih

/-- The digits of a number with zeros in front. -/
def paddedDigits (width n : Nat) : List (Fin 10) :=
  List.replicate (width - (toString n).length) zeroDigit ++ digitsOf n

theorem toList_padded (width n : Nat) :
    (padded width n).toList = (paddedDigits width n).map digitChar := by
  have hzero : digitChar zeroDigit = '0' := rfl
  have hdigits : (toString n).toList = (digitsOf n).map digitChar :=
    Nat.toList_repr.trans (map_digitChar_digitsOf n).symm
  rw [padded, paddedDigits, String.toList_append, String.toList_ofList, List.map_append,
    List.map_replicate, hzero, hdigits]

end BoundSql.Text
