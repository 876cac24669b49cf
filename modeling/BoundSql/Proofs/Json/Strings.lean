import BoundSql.Proofs.Value.JsonText

/-!
# Strings in JSON

What stands between the quotes of a string are UTF-16 units. An escape with hexadecimal digits is
one unit; any other escape and any character that needs none are the one or two units of a
character. Only then the units are decoded, so a character may be two escapes. Half of a surrogate
pair without the other half is no character, but a string may have it: it is read as a mark in the
place of a character.

* `decode_flatMap_utf16` — characters are known from their units;
* `IsString` — the grammar of strings;
* `readChars_append`, `isChars_of_readChars` — a reader for what stands between the quotes, in both
  directions;
* `isString_string` — a text is written as a string that stands for it.
-/

namespace BoundSql.Json

open Text

/-! ### Units -/

/-- The UTF-16 units of a character. -/
def utf16 (c : Char) : List Nat :=
  if c.toNat < 0x10000 then [c.toNat]
  else [0xd800 + (c.toNat - 0x10000) / 0x400, 0xdc00 + (c.toNat - 0x10000) % 0x400]

/-- The first half of a surrogate pair. -/
def isHigh (u : Nat) : Bool := 0xd800 ≤ u && u < 0xdc00

/-- The second half of a surrogate pair. -/
def isLow (u : Nat) : Bool := 0xdc00 ≤ u && u < 0xe000

/-- The character of a unit alone; half of a pair has a mark in its place. -/
def unitChar (u : Nat) : Char := if isHigh u || isLow u then Char.ofNat 0xfffd else Char.ofNat u

/-- The character of a surrogate pair. -/
def pairChar (high low : Nat) : Char :=
  Char.ofNat (0x10000 + (high - 0xd800) * 0x400 + (low - 0xdc00))

/-- The characters that units stand for. -/
def decode : List Nat → List Char
  | high :: low :: us =>
    if isHigh high && isLow low then pairChar high low :: decode us
    else unitChar high :: decode (low :: us)
  | [u] => [unitChar u]
  | [] => []

/-- A character is decoded from its units, whatever comes behind them. -/
theorem decode_utf16_append (c : Char) (us : List Nat) :
    decode (utf16 c ++ us) = c :: decode us := by
  have hvalid := toNat_lt_or c
  rw [utf16]
  split
  -- one unit, which is no half of a pair, as no character is
  · rename_i hplane
    have hhigh : isHigh c.toNat = false := by
      simp only [isHigh, Bool.and_eq_false_iff, decide_eq_false_iff_not]
      omega
    have hlow : isLow c.toNat = false := by
      simp only [isLow, Bool.and_eq_false_iff, decide_eq_false_iff_not]
      omega
    have hunit : unitChar c.toNat = c := by simp [unitChar, hhigh, hlow]
    cases us with
    | nil => rw [List.append_nil, decode, hunit, decode]
    | cons low us => simp [decode, hhigh, hunit]
  -- two units, which are a pair whatever comes next
  · rename_i hplane
    generalize hn : c.toNat - 0x10000 = n
    have hbound : n < 0x100000 := by omega
    have hhigh : isHigh (0xd800 + n / 0x400) = true := by
      simp only [isHigh, Bool.and_eq_true, decide_eq_true_eq]
      omega
    have hlow : isLow (0xdc00 + n % 0x400) = true := by
      simp only [isLow, Bool.and_eq_true, decide_eq_true_eq]
      omega
    have hpair : pairChar (0xd800 + n / 0x400) (0xdc00 + n % 0x400) = c := by
      have hwhole : 0x10000 + (0xd800 + n / 0x400 - 0xd800) * 0x400 +
          (0xdc00 + n % 0x400 - 0xdc00) = c.toNat := by omega
      rw [pairChar, hwhole, Char.ofNat_toNat]
    simp [decode, hhigh, hlow, hpair]

/-- **Characters are known from their units.** -/
theorem decode_flatMap_utf16 (cs : List Char) : decode (cs.flatMap utf16) = cs := by
  induction cs with
  | nil => rfl
  | cons c cs ih => rw [List.flatMap_cons, decode_utf16_append, ih]

/-! ### The grammar -/

/-- A character of a string, or an escape, with its units. -/
inductive IsChar : List Char → List Nat → Prop where
  | plain {c : Char} (hquote : c ≠ '"') (hslash : c ≠ '\\') (hcontrol : 32 ≤ c.toNat) :
    IsChar [c] (utf16 c)
  | short {e c : Char} (h : shortEscapes.lookup e = some c) : IsChar ['\\', e] (utf16 c)
  | unit {a b c d : Char} {n : Nat} (h : hexNumber? [a, b, c, d] = some n) :
    IsChar ['\\', 'u', a, b, c, d] [n]

/-- The characters of a string with their units. -/
inductive IsChars : List Char → List Nat → Prop where
  | nil : IsChars [] []
  | cons {cs ds : List Char} {us vs : List Nat} (h : IsChar cs us) (hs : IsChars ds vs) :
    IsChars (cs ++ ds) (us ++ vs)

/-- **The characters of a string** with the quotes, and the text it stands for. -/
inductive IsString : List Char → String → Prop where
  | mk {cs : List Char} {us : List Nat} (h : IsChars cs us) :
    IsString ('"' :: (cs ++ ['"'])) (String.ofList (decode us))

/-! ### Reading -/

/-- **Reads the units of a string** up to the closing quote; what comes behind it is left. -/
def readChars : List Char → Option (List Nat × List Char)
  | '"' :: rest => some ([], rest)
  | '\\' :: 'u' :: a :: b :: c :: d :: rest =>
    match hexNumber? [a, b, c, d] with
    | some n => (readChars rest).map fun (us, rest) => (n :: us, rest)
    | none => none
  | '\\' :: e :: rest =>
    match shortEscapes.lookup e with
    | some c => (readChars rest).map fun (us, rest) => (utf16 c ++ us, rest)
    | none => none
  | c :: rest =>
    if c.toNat < 32 then none
    else (readChars rest).map fun (us, rest) => (utf16 c ++ us, rest)
  | [] => none

/-- One character of a string is read in front of what is read behind it. -/
theorem readChars_append_of_isChar {cs : List Char} {us : List Nat} (h : IsChar cs us)
    (behind : List Char) :
    readChars (cs ++ behind) = (readChars behind).map fun (vs, rest) => (us ++ vs, rest) := by
  cases h with
  | @plain c hquote hslash hcontrol =>
    rw [List.singleton_append, readChars, if_neg (Nat.not_lt.mpr hcontrol)]
    · exact hquote
    · exact fun _ _ _ _ _ hc => absurd hc hslash
    · exact fun _ _ hc => absurd hc hslash
  | @short e c h =>
    -- no letter of a short escape is the one in front of a unit
    have he : e ≠ 'u' := by
      rintro rfl
      cases h
    rw [List.cons_append, List.cons_append, List.nil_append, readChars]
    · simp only [h]
    · exact fun _ _ _ _ _ heq => absurd heq he
  | unit h =>
    simp only [List.cons_append, List.nil_append, readChars, h]

/-- **What stands between quotes is read**, and what comes behind them is left. -/
theorem readChars_append {cs : List Char} {us : List Nat} (h : IsChars cs us) (rest : List Char) :
    readChars (cs ++ '"' :: rest) = some (us, rest) := by
  induction h with
  | nil => rfl
  | cons h _ ih =>
    rw [List.append_assoc, readChars_append_of_isChar h, ih]
    rfl

/-- A character in front of what is known to be read of the rest. -/
theorem isChars_of_map {cs behind rest : List Char} {us vs : List Nat} (hchar : IsChar cs us)
    (hbehind : ∀ {ws}, readChars behind = some (ws, rest) →
      ∃ front, IsChars front ws ∧ behind = front ++ '"' :: rest)
    (h : (readChars behind).map (fun (ws, rest) => (us ++ ws, rest)) = some (vs, rest)) :
    ∃ front, IsChars front vs ∧ cs ++ behind = front ++ '"' :: rest := by
  obtain ⟨⟨ws, _⟩, hread, heq⟩ := Option.map_eq_some_iff.mp h
  cases heq
  obtain ⟨front, hfront, rfl⟩ := hbehind hread
  exact ⟨cs ++ front, .cons hchar hfront, (List.append_assoc ..).symm⟩

/-- What is read are the characters of a string, up to a quote. -/
theorem isChars_of_readChars {cs rest : List Char} {us : List Nat}
    (h : readChars cs = some (us, rest)) :
    ∃ front, IsChars front us ∧ cs = front ++ '"' :: rest := by
  induction cs using readChars.induct generalizing us with
  | case1 =>
    cases h
    exact ⟨[], .nil, rfl⟩
  | case2 a b c d behind n hn ih =>
    -- a unit in four hexadecimal digits
    rw [readChars, hn] at h
    exact isChars_of_map (.unit hn) ih h
  | case3 a b c d behind hn =>
    rw [readChars, hn] at h
    cases h
  | case4 e behind hunit c hc ih =>
    -- a letter behind a backslash
    rw [readChars, hc] at h
    · exact isChars_of_map (.short hc) ih h
    · exact hunit
  | case5 e behind hunit hc =>
    rw [readChars, hc] at h
    · cases h
    · exact hunit
  | case6 c behind hquote hunit hshort hcontrol =>
    -- a control character may not stand by itself
    rw [readChars, if_pos hcontrol] at h
    · cases h
    · exact hquote
    · exact hunit
    · exact hshort
  | case7 c behind hquote hunit hshort hcontrol ih =>
    rw [readChars, if_neg hcontrol] at h
    · refine isChars_of_map (.plain hquote ?_ (Nat.not_lt.mp hcontrol)) ih h
      -- a backslash has nothing behind it here, so no quote is found
      rintro rfl
      cases behind with
      | nil => cases h
      | cons e behind => exact hshort e behind rfl rfl
    · exact hquote
    · exact hunit
    · exact hshort
  | case8 => cases h

/-! ### Strings as they are written -/

theorem isChars_singleton {cs : List Char} {us : List Nat} (h : IsChar cs us) : IsChars cs us := by
  have hchars := IsChars.cons h .nil
  rwa [List.append_nil, List.append_nil] at hchars

theorem isChars_append {cs ds : List Char} {us vs : List Nat} (h : IsChars cs us)
    (hs : IsChars ds vs) : IsChars (cs ++ ds) (us ++ vs) := by
  induction h with
  | nil => exact hs
  | cons h _ ih =>
    rw [List.append_assoc, List.append_assoc]
    exact .cons h ih

/-- Every way to write a character stands for its units. -/
theorem isChars_of_escape {c : Char} {cs : List Char} (h : Escape c cs) : IsChars cs (utf16 c) := by
  -- four digits in hexadecimal are enough for a unit
  have hunit {n : Nat} (hn : n < 0x10000) : IsChar (unitEscape n) [n] := by
    have hnumber : hexNumber? (hexDigits 4 n) = some n := hexNumber?_hexDigits hn
    exact .unit hnumber
  cases h with
  | short h => exact isChars_singleton (.short h)
  | plain hquote hslash hprint => exact isChars_singleton (.plain hquote hslash hprint)
  | unit h =>
    rw [utf16, if_pos h]
    exact isChars_singleton (hunit h)
  | pair h =>
    -- beyond the first plane a character is two units, each of them escaped
    have hvalid := toNat_lt_or c
    rw [utf16, if_neg (Nat.not_lt.mpr h)]
    exact .cons (hunit (by omega)) (isChars_singleton (hunit (by omega)))

/-- **A text is written as a string** that stands for it. -/
theorem isString_string (s : String) : IsString (string s).toList s := by
  have hchars : ∀ cs : List Char, IsChars (cs.flatMap escapeChar) (cs.flatMap utf16) := by
    intro cs
    induction cs with
    | nil => exact .nil
    | cons c cs ih =>
      rw [List.flatMap_cons, List.flatMap_cons]
      exact isChars_append (isChars_of_escape (escape_escapeChar c)) ih
  have hstring := IsString.mk (hchars s.toList)
  rwa [decode_flatMap_utf16, String.ofList_toList, ← toList_string] at hstring

end BoundSql.Json
