import BoundSql.Proofs.Text.Digits
import BoundSql.Value.Basic

/-!
# Numbers in JSON

A number is a whole number without zeros in front, and behind it there may be a point with digits
and an exponent. Without these it is a whole number; with one of them it is the floating point
number nearest to what is written.

A number is read part by part. No part can be taken for the beginning of the next one, so a number
is read in one way only.

* `IsNumber` — the grammar of numbers;
* `number?_eq_some_iff` — a reader for them;
* `isNumber_int`, `isNumber_float` — numbers are written in this grammar, if they are finite.
-/

namespace BoundSql.Json

open Text

/-! ### The grammar -/

/-- A minus sign, or nothing. -/
def minusChars (negative : Bool) : List Char := if negative then ['-'] else []

/-- A point with digits behind it, or nothing if there are no digits. -/
def pointChars (fraction : List (Fin 10)) : List Char :=
  if fraction = [] then [] else '.' :: fraction.map digitChar

/-- An exponent, or nothing. -/
inductive IsExponent : List Char → Option Int → Prop where
  | absent : IsExponent [] none
  | present {letter : Char} (hletter : letter = 'e' ∨ letter = 'E') {cs : List Char} {n : Int}
      (h : IsInteger cs n) : IsExponent (letter :: cs) (some n)

/-- **The characters of a number**: a sign, digits without zeros in front, digits behind a point, an
exponent. -/
inductive IsNumber : List Char → Numeral → Prop where
  | mk (negative : Bool) {whole : List (Fin 10)} (hwhole : isWhole whole = true)
      (fraction : List (Fin 10)) {cs : List Char} {exponent : Option Int}
      (h : IsExponent cs exponent) :
    IsNumber (minusChars negative ++ (whole.map digitChar ++ (pointChars fraction ++ cs)))
      ⟨negative, whole, fraction, exponent⟩

/-- What a number is read as: a whole number, or with a point or an exponent a floating point
number. -/
def numberValue (n : Numeral) : Value :=
  if n.fraction = [] ∧ n.exponent = none then .int n.scaled.coefficient
  else .float (FloatText.nearest n.negative n.scaled)

/-! ### Reading -/

/-- A minus sign at the start of a text, and the rest. -/
def takeMinusSign : List Char → Bool × List Char
  | '-' :: cs => (true, cs)
  | cs => (false, cs)

/-- A point at the start of a text with its digits, of which there must be some, and the rest. -/
def takePoint : List Char → Option (List (Fin 10) × List Char)
  | '.' :: cs => match takeDigits cs with
    | ([], _) => none
    | (d :: ds, rest) => some (d :: ds, rest)
  | cs => some ([], cs)

/-- An exponent that takes up the whole text. -/
def exponent? : List Char → Option (Option Int)
  | [] => some none
  | c :: cs => if c = 'e' ∨ c = 'E' then (integer? cs).map some else none

/-- **Reads a number** that takes up the whole text. -/
def number? (cs : List Char) : Option Numeral :=
  let (negative, rest) := takeMinusSign cs
  let (whole, rest) := takeDigits rest
  if isWhole whole then
    (takePoint rest).bind fun (fraction, rest) =>
      (exponent? rest).map fun exponent => ⟨negative, whole, fraction, exponent⟩
  else none

theorem eq_append_of_takeMinusSign {cs rest : List Char} {negative : Bool}
    (h : takeMinusSign cs = (negative, rest)) : cs = minusChars negative ++ rest := by
  unfold takeMinusSign at h
  split at h
  · cases h
    rfl
  · cases h
    rfl

theorem takeMinusSign_append (negative : Bool) {ds : List (Fin 10)} (h : ds ≠ [])
    (rest : List Char) :
    takeMinusSign (minusChars negative ++ (ds.map digitChar ++ rest)) =
      (negative, ds.map digitChar ++ rest) := by
  obtain ⟨d, ds, rfl⟩ := List.exists_cons_of_ne_nil h
  cases negative with
  | true => rfl
  | false =>
    show takeMinusSign (digitChar d :: (ds.map digitChar ++ rest)) = _
    rw [takeMinusSign]
    · rfl
    · exact fun _ hcs => digitChar_ne (by decide) d (List.cons.inj hcs).1

theorem eq_append_of_takePoint {cs rest : List Char} {fraction : List (Fin 10)}
    (h : takePoint cs = some (fraction, rest)) : cs = pointChars fraction ++ rest := by
  unfold takePoint at h
  -- a point needs a digit behind it, and without one there is no fraction
  split at h
  · split at h
    · cases h
    · rename_i d ds rest' htake
      cases h
      obtain ⟨rfl, -⟩ := takeDigits_eq_iff.mp htake
      rfl
  · cases h
    rfl

/-- Neither a digit nor a point is taken for the start of an exponent. -/
theorem IsExponent.head? {cs : List Char} {exponent : Option Int} (h : IsExponent cs exponent) :
    ∀ c ∈ cs.head?, digit? c = none ∧ c ≠ '.' := by
  cases h with
  | absent => nofun
  | present hletter =>
    refine forall_mem_head?_cons ?_ _
    rcases hletter with rfl | rfl <;> decide

theorem takePoint_append (fraction : List (Fin 10)) {cs : List Char}
    (h : ∀ c ∈ cs.head?, digit? c = none ∧ c ≠ '.') :
    takePoint (pointChars fraction ++ cs) = some (fraction, cs) := by
  cases fraction with
  | nil =>
    -- without a fraction a point behind the number would be taken for one
    show takePoint cs = _
    rw [takePoint]
    rintro rest rfl
    exact (h '.' rfl).2 rfl
  | cons d ds =>
    show (match takeDigits ((d :: ds).map digitChar ++ cs) with
      | ([], _) => none
      | (d :: ds, rest) => some (d :: ds, rest)) = _
    rw [takeDigits_append _ fun c hc => (h c hc).1]

theorem exponent?_eq_some_iff {cs : List Char} {exponent : Option Int} :
    exponent? cs = some exponent ↔ IsExponent cs exponent := by
  constructor
  · intro h
    cases cs with
    | nil =>
      cases h
      exact .absent
    | cons c cs =>
      rw [exponent?] at h
      -- an exponent has a letter in front; without one nothing may follow
      split at h
      · rename_i hletter
        obtain ⟨n, hn, rfl⟩ := Option.map_eq_some_iff.mp h
        exact .present hletter (integer?_eq_some_iff.mp hn)
      · cases h
  · intro h
    cases h with
    | absent => rfl
    | present hletter hn =>
      rw [exponent?, if_pos hletter, integer?_eq_some_iff.mpr hn]
      rfl

theorem ne_nil_of_isWhole {ds : List (Fin 10)} (h : isWhole ds = true) : ds ≠ [] := by
  rintro rfl
  cases h

/-- **A number is read** from its characters and from no others. -/
theorem number?_eq_some_iff {cs : List Char} {n : Numeral} :
    number? cs = some n ↔ IsNumber cs n := by
  constructor
  · intro h
    rcases hminus : takeMinusSign cs with ⟨negative, rest⟩
    rcases hdigits : takeDigits rest with ⟨whole, behind⟩
    rw [number?, hminus] at h
    dsimp only at h
    rw [hdigits] at h
    dsimp only at h
    split at h
    · -- sign, whole part, fraction and exponent are taken off one after the other
      rename_i hwhole
      obtain ⟨⟨fraction, last⟩, hpoint, h⟩ := Option.bind_eq_some_iff.mp h
      obtain ⟨exponent, hexponent, rfl⟩ := Option.map_eq_some_iff.mp h
      rw [eq_append_of_takeMinusSign hminus, (takeDigits_eq_iff.mp hdigits).1,
        eq_append_of_takePoint hpoint]
      exact .mk negative hwhole fraction (exponent?_eq_some_iff.mp hexponent)
    · cases h
  · intro h
    cases h with
    | @mk negative whole hwhole fraction cs exponent h =>
      -- behind the whole part there is a point, a letter or nothing
      have hdigits : NoDigit (pointChars fraction ++ cs) := by
        cases fraction with
        | nil => exact fun c hc => (h.head? c hc).1
        | cons d ds => exact noDigit_cons (by decide) _
      rw [number?, takeMinusSign_append negative (ne_nil_of_isWhole hwhole)]
      dsimp only
      rw [takeDigits_append whole hdigits]
      dsimp only
      rw [if_pos hwhole, takePoint_append fraction h.head?, Option.bind_some,
        exponent?_eq_some_iff.mpr h]
      rfl

/-! ### Characters -/

/-- A character of a number: a digit, a sign, a point or the letter of an exponent. -/
def isNumberChar (c : Char) : Bool := (digit? c).isSome || ['-', '+', '.', 'e', 'E'].contains c

theorem isNumberChar_of_mem_digits {ds : List (Fin 10)} :
    ∀ c ∈ ds.map digitChar, isNumberChar c = true :=
  List.forall_mem_map.mpr fun d _ => by simp [isNumberChar]

/-- **A number has no other characters.** -/
theorem IsNumber.chars {cs : List Char} {n : Numeral} (h : IsNumber cs n) :
    ∀ c ∈ cs, isNumberChar c = true := by
  -- sign, digits, fraction and exponent, part by part
  cases h with
  | @mk negative whole hwhole fraction cs exponent h =>
    have hminus : ∀ c ∈ minusChars negative, isNumberChar c = true := by
      cases negative <;> exact List.all_eq_true.mp rfl
    have hpoint : ∀ c ∈ pointChars fraction, isNumberChar c = true := by
      cases fraction with
      | nil => exact List.forall_mem_nil _
      | cons d ds => exact List.forall_mem_cons.mpr ⟨rfl, isNumberChar_of_mem_digits⟩
    have hexponent : ∀ c ∈ cs, isNumberChar c = true := by
      cases h with
      | absent => exact List.forall_mem_nil _
      | present hletter hn =>
        refine List.forall_mem_cons.mpr ⟨by rcases hletter with rfl | rfl <;> rfl, ?_⟩
        cases hn with
        | plain _ => exact isNumberChar_of_mem_digits
        | plus _ => exact List.forall_mem_cons.mpr ⟨rfl, isNumberChar_of_mem_digits⟩
        | minus _ => exact List.forall_mem_cons.mpr ⟨rfl, isNumberChar_of_mem_digits⟩
    simp only [List.forall_mem_append]
    exact ⟨hminus, isNumberChar_of_mem_digits, hpoint, hexponent⟩

/-- A character of a word: a letter, a digit, a sign or a point. -/
def isWordChar (c : Char) : Bool := c.isAlphanum || ['-', '+', '.'].contains c

theorem isWordChar_of_isNumberChar {c : Char} (h : isNumberChar c = true) :
    isWordChar c = true := by
  have hdigit : ∀ d : Fin 10, isWordChar (digitChar d) = true := by decide
  rcases (Bool.or_eq_true ..).mp h with hc | hc
  · obtain ⟨d, hd⟩ := Option.isSome_iff_exists.mp hc
    obtain rfl := digit?_eq_some_iff.mp hd
    exact hdigit d
  · simp only [List.contains_iff_mem, List.mem_cons, List.not_mem_nil, or_false] at hc
    rcases hc with rfl | rfl | rfl | rfl | rfl <;> rfl

/-- **A number is a word**, and not an empty one. -/
theorem IsNumber.word {cs : List Char} {n : Numeral} (h : IsNumber cs n) :
    cs ≠ [] ∧ ∀ c ∈ cs, isWordChar c = true := by
  refine ⟨?_, fun c hc => isWordChar_of_isNumberChar (h.chars c hc)⟩
  cases h with
  | mk negative hwhole fraction h => simp [ne_nil_of_isWhole hwhole]

/-! ### Numbers as they are written -/

/-- The numeral of a whole number. -/
def intNumeral (n : Int) : Numeral := ⟨decide (n < 0), digitsOf n.natAbs, [], none⟩

theorem numberValue_intNumeral (n : Int) : numberValue (intNumeral n) = .int n := by
  have hcoefficient : (intNumeral n).scaled.coefficient = n := by
    show (if decide (n < 0) = true then -((ofDigits (digitsOf n.natAbs ++ []) : Nat) : Int)
      else (ofDigits (digitsOf n.natAbs ++ []) : Nat)) = n
    rw [List.append_nil, ofDigits_digitsOf]
    by_cases hneg : n < 0
    · rw [if_pos (decide_eq_true hneg), ← Int.eq_neg_natAbs_of_nonpos (Int.le_of_lt hneg)]
    · rw [if_neg (fun h => hneg (of_decide_eq_true h)), Int.natAbs_of_nonneg (Int.not_lt.mp hneg)]
  rw [numberValue, if_pos ⟨rfl, rfl⟩, hcoefficient]

/-- **A whole number is written** as a number. -/
theorem isNumber_int (n : Int) : IsNumber (toString n).toList (intNumeral n) := by
  have hchars : (toString n).toList =
      minusChars (decide (n < 0)) ++
        ((digitsOf n.natAbs).map digitChar ++ (pointChars [] ++ [])) := by
    rw [map_digitChar_digitsOf, ← Nat.toList_repr]
    -- a number below zero is written as a minus and its absolute value
    cases n with
    | ofNat n =>
      have hsign : minusChars (decide (Int.ofNat n < 0)) = [] := if_neg (by simp)
      rw [hsign]
      exact (List.append_nil _).symm
    | negSucc n =>
      have hsign : minusChars (decide (Int.negSucc n < 0)) = ['-'] := if_pos (by simp)
      have htext : toString (Int.negSucc n) = "-" ++ (n + 1).repr := rfl
      rw [hsign, htext, String.toList_append]
      exact congrArg _ (List.append_nil _).symm
  rw [hchars]
  exact .mk _ (isWhole_digitsOf _) [] .absent

/-- An exponent is written as one. -/
theorem isExponent_text (exponent : Option Int) :
    IsExponent (FloatText.exponentText exponent).toList exponent := by
  cases exponent with
  | none => exact .absent
  | some e =>
    have hne : paddedDigits 2 e.natAbs ≠ [] := by
      intro h
      exact ne_nil_of_isWhole (isWhole_digitsOf _) (List.append_eq_nil_iff.mp h).2
    -- the digits are filled up to two, which does not change their number
    have hdigits : (ofDigits (paddedDigits 2 e.natAbs) : Int) = e.natAbs := by
      rw [paddedDigits, ofDigits_replicate_append, ofDigits_digitsOf]
    rw [FloatText.exponentText, String.toList_append, toList_padded]
    -- the sign is always written, so it is read as a minus or a plus
    split
    · have he : -(ofDigits (paddedDigits 2 e.natAbs) : Int) = e := by omega
      have hnumber : IsExponent ('e' :: _) _ := .present (.inl rfl) (.minus hne)
      rwa [he] at hnumber
    · have he : (ofDigits (paddedDigits 2 e.natAbs) : Int) = e := by omega
      have hnumber : IsExponent ('e' :: _) _ := .present (.inl rfl) (.plus hne)
      rwa [he] at hnumber

/-- **A finite floating point number is written** as a number. -/
theorem isNumber_float (negative : Bool) (whole : Nat) (fraction : List (Fin 10))
    (exponent : Option Int) :
    IsNumber (FloatText.finite negative whole fraction exponent).json.toList
      ⟨negative, digitsOf whole, fraction, exponent⟩ := by
  have hminus : (if negative then "-" else "").toList = minusChars negative := by
    cases negative <;> rfl
  -- each of the parts is written as the grammar has it
  have hwhole : (toString whole).toList = (digitsOf whole).map digitChar :=
    Nat.toList_repr.trans (map_digitChar_digitsOf whole).symm
  have hpoint : (FloatText.fractionText fraction).toList = pointChars fraction := by
    cases fraction with
    | nil => rfl
    | cons d ds => simp [FloatText.fractionText, pointChars, digitsText]
  rw [FloatText.json, FloatText.finiteText, String.toList_append, String.toList_append,
    String.toList_append, hminus, hwhole, hpoint, List.append_assoc, List.append_assoc]
  exact .mk negative (isWhole_digitsOf whole) fraction (isExponent_text exponent)

end BoundSql.Json
