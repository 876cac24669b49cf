import BoundSql.Value.Json
import Mathlib.Algebra.Group.Nat.Defs
import Mathlib.Tactic.SplitIfs

/-!
# Where a JSON text ends

A JSON text needs no mark behind it. A string ends with its closing quote, an array and an object
with their closing bracket, and a word (a number, a truth value, `null`) in front of the punctuation
that follows it. So no JSON text is the beginning of another, and the items of an array and the
members of an object are known from its text.

The characters of a string are read one by one: `readChar` undoes an escape, however long it is.

* `readChar_escapeChar`, `string_append_injective` — strings;
* `IsText` — the texts of JSON values, built of words, strings, arrays and objects;
* `IsText.append_injective` — a text in front of punctuation is known from the whole;
* `array_injective`, `object_injective` — so are the parts of a text from the text.
-/

namespace BoundSql.Json

open Text

/-! ### Characters of a string -/

/-- The number of hexadecimal digits. -/
def hexNumber? (cs : List Char) : Option Nat :=
  cs.foldlM (fun n c => (hexDigit? c).map (16 * n + ·)) 0

theorem hexDigit?_hexChar {n : Nat} (h : n < 16) : hexDigit? (hexChar n) = some n := by
  revert n
  decide

/-- Hexadecimal digits are undone, if there are enough of them. -/
theorem hexNumber?_hexDigits {width n : Nat} (h : n < 16 ^ width) :
    hexNumber? (hexDigits width n) = some n := by
  induction width generalizing n with
  | zero =>
    obtain rfl : n = 0 := by omega
    rfl
  | succ width ih =>
    -- the last digit is the remainder, the others are those of the quotient
    have hfront : n / 16 < 16 ^ width := Nat.div_lt_of_lt_mul (by rwa [← Nat.pow_succ'])
    have hlast : hexDigit? (hexChar (n % 16)) = some (n % 16) :=
      hexDigit?_hexChar (Nat.mod_lt _ (by decide))
    have hwhole : 16 * (n / 16) + n % 16 = n := Nat.div_add_mod n 16
    have hdigits := ih hfront
    unfold hexNumber? at hdigits ⊢
    rw [hexDigits, List.foldlM_append, hdigits]
    simp [hlast, hwhole]

/-- The characters behind a backslash that stand for a character. -/
def shortEscapes : List (Char × Char) :=
  [('"', '"'), ('\\', '\\'), ('/', '/'), ('n', '\n'), ('r', '\r'), ('t', '\t'),
    ('f', Char.ofNat 12), ('b', Char.ofNat 8)]

/-- **How a character may be written** in a string: with a letter behind a backslash, as itself, as
its UTF-16 unit, or as the two units of a surrogate pair. -/
inductive Escape (c : Char) : List Char → Prop where
  | short {e : Char} (h : shortEscapes.lookup e = some c) : Escape c ['\\', e]
  | plain (hquote : c ≠ '"') (hslash : c ≠ '\\') (hprint : 32 ≤ c.toNat) : Escape c [c]
  | unit (h : c.toNat < 0x10000) : Escape c (unitEscape c.toNat)
  | pair (h : 0x10000 ≤ c.toNat) : Escape c
      (unitEscape (0xd800 + (c.toNat - 0x10000) / 0x400) ++
        unitEscape (0xdc00 + (c.toNat - 0x10000) % 0x400))

theorem escape_escapeChar (c : Char) : Escape c (escapeChar c) := by
  unfold escapeChar
  split_ifs with hquote hslash hn hr ht hf hb hplain hunit
  all_goals try (subst_vars; exact .short rfl)
  · exact .plain hquote hslash hplain.1
  · exact .unit hunit
  · exact .pair (Nat.le_of_not_lt hunit)

/-- The UTF-16 unit whose escape comes first, and what comes behind it. -/
def readUnit : List Char → Option (Nat × List Char)
  | '\\' :: 'u' :: a :: b :: c :: d :: rest => (hexNumber? [a, b, c, d]).map (·, rest)
  | _ => none

/-- **The character of a string that comes first**, and what comes behind it. Two units that are a
surrogate pair are one character. -/
def readChar (cs : List Char) : Option (Char × List Char) :=
  match readUnit cs with
  | some (high, rest) =>
    if 0xd800 ≤ high ∧ high < 0xe000 then
      (readUnit rest).map fun (low, rest) =>
        (Char.ofNat (0x10000 + (high - 0xd800) * 0x400 + (low - 0xdc00)), rest)
    else some (Char.ofNat high, rest)
  | none =>
    match cs with
    | '\\' :: e :: rest => (shortEscapes.lookup e).map (·, rest)
    | c :: rest => if c = '"' then none else some (c, rest)
    | [] => none

theorem readUnit_unitEscape {n : Nat} (h : n < 0x10000) (rest : List Char) :
    readUnit (unitEscape n ++ rest) = some (n, rest) := by
  have hnumber : hexNumber? (hexDigits 4 n) = some n := hexNumber?_hexDigits h
  show (hexNumber? (hexDigits 4 n)).map (·, rest) = some (n, rest)
  rw [hnumber]
  rfl

/-- No character is half of a surrogate pair. -/
theorem toNat_lt_or (c : Char) : c.toNat < 0xd800 ∨ 0xdfff < c.toNat ∧ c.toNat < 0x110000 := c.valid

/-- A unit that is no half of a pair is a character. -/
theorem readChar_of_unit {cs rest : List Char} {n : Nat} (h : readUnit cs = some (n, rest))
    (hhalf : ¬ (0xd800 ≤ n ∧ n < 0xe000)) : readChar cs = some (Char.ofNat n, rest) := by
  unfold readChar
  simp only [h, if_neg hhalf]

/-- Two units that are a pair are a character. -/
theorem readChar_of_pair {cs behind rest : List Char} {high low : Nat}
    (h : readUnit cs = some (high, behind)) (hhalf : 0xd800 ≤ high ∧ high < 0xe000)
    (hlow : readUnit behind = some (low, rest)) :
    readChar cs =
      some (Char.ofNat (0x10000 + (high - 0xd800) * 0x400 + (low - 0xdc00)), rest) := by
  unfold readChar
  simp only [h, if_pos hhalf, hlow, Option.map_some]

/-- **An escape is undone**, whatever comes behind it. -/
theorem readChar_of_escape {c : Char} {cs : List Char} (h : Escape c cs) (rest : List Char) :
    readChar (cs ++ rest) = some (c, rest) := by
  cases h with
  | @short e h =>
    -- no letter of a short escape is the one in front of a unit
    have hread : readUnit ('\\' :: e :: rest) = none := by
      unfold readUnit
      split
      · rename_i heq
        obtain ⟨rfl, -⟩ := List.cons.inj (List.cons.inj heq).2
        cases h
      · rfl
    unfold readChar
    simp only [List.cons_append, List.nil_append, hread, h, Option.map_some]
  | plain hquote hslash hprint =>
    have hread : readUnit (c :: rest) = none := by
      unfold readUnit
      split
      · rename_i heq
        exact absurd (List.cons.inj heq).1 hslash
      · rfl
    unfold readChar
    simp [hread, hquote, hslash]
  | unit h =>
    -- the character itself, so it is no half of a pair
    have hhalf : ¬ (0xd800 ≤ c.toNat ∧ c.toNat < 0xe000) := by
      have hvalid := toNat_lt_or c
      omega
    rw [readChar_of_unit (readUnit_unitEscape h rest) hhalf, Char.ofNat_toNat]
  | pair h =>
    -- the two halves hold ten bits each of what exceeds the first plane
    generalize hn : c.toNat - 0x10000 = n
    have hbound : n < 0x100000 := by
      have hvalid := toNat_lt_or c
      omega
    have hwhole : 0x10000 + (0xd800 + n / 0x400 - 0xd800) * 0x400 +
        (0xdc00 + n % 0x400 - 0xdc00) = c.toNat := by omega
    have hhigh := readUnit_unitEscape (n := 0xd800 + n / 0x400) (by omega)
      (unitEscape (0xdc00 + n % 0x400) ++ rest)
    have hlow := readUnit_unitEscape (n := 0xdc00 + n % 0x400) (by omega) rest
    rw [List.append_assoc, readChar_of_pair hhigh (by omega) hlow, hwhole, Char.ofNat_toNat]

/-- **The characters of a string and what comes behind it** are known from the whole. -/
theorem chars_append_injective {s s' : List Char} {rest rest' : List Char}
    (h : s.flatMap escapeChar ++ '"' :: rest = s'.flatMap escapeChar ++ '"' :: rest') :
    s = s' ∧ rest = rest' := by
  have hread (c : Char) (s rest : List Char) :
      readChar ((c :: s).flatMap escapeChar ++ rest) =
        some (c, s.flatMap escapeChar ++ rest) := by
    rw [List.flatMap_cons, List.append_assoc, readChar_of_escape (escape_escapeChar c)]
  -- the closing quote is no character of a string
  have hclose (rest : List Char) : readChar ('"' :: rest) = none := rfl
  -- read one character of each side at a time
  induction s generalizing s' with
  | nil =>
    cases s' with
    | nil => exact ⟨rfl, (List.cons.inj h).2⟩
    | cons c s' =>
      have hchar := congrArg readChar h
      rw [hread, List.flatMap_nil, List.nil_append, hclose] at hchar
      cases hchar
  | cons c s ih =>
    have hchar := congrArg readChar h
    cases s' with
    | nil =>
      rw [hread, List.flatMap_nil, List.nil_append, hclose] at hchar
      cases hchar
    | cons c' s' =>
      rw [hread, hread] at hchar
      obtain ⟨rfl, hrest⟩ := Prod.mk.inj (Option.some.inj hchar)
      obtain ⟨rfl, hbehind⟩ := ih hrest
      exact ⟨rfl, hbehind⟩

theorem toList_string (s : String) :
    (string s).toList = '"' :: (s.toList.flatMap escapeChar ++ ['"']) :=
  String.toList_ofList

/-- **A string and what comes behind it** are known from the whole. -/
theorem string_append_injective {s s' : String} {rest rest' : List Char}
    (h : (string s).toList ++ rest = (string s').toList ++ rest') : s = s' ∧ rest = rest' := by
  rw [toList_string, toList_string, List.cons_append, List.cons_append, List.append_assoc,
    List.append_assoc] at h
  obtain ⟨hchars, hbehind⟩ := chars_append_injective (List.cons.inj h).2
  exact ⟨String.toList_inj.mp hchars, hbehind⟩

/-! ### Items between brackets -/

/-- What no word holds. -/
def isPunctuation (c : Char) : Bool := ['"', ',', ':', '[', ']', '\x7b', '\x7d', ' '].contains c

/-- A text without punctuation. -/
def Plain (s : String) : Prop := ∀ c ∈ s.toList, isPunctuation c = false

instance (s : String) : Decidable (Plain s) :=
  decidable_of_iff (s.toList.all fun c => !isPunctuation c) (by simp [Plain])

/-- Nothing, or punctuation in front: what may come behind a JSON text. -/
def Stops (rest : List Char) : Prop := ∀ c ∈ rest.head?, isPunctuation c = true

theorem stops_cons {c : Char} (h : isPunctuation c = true) (rest : List Char) :
    Stops (c :: rest) := by
  intro x hx
  obtain rfl : c = x := Option.some.inj hx
  exact h

/-- Items with commas between them and a closing bracket behind. -/
def closed (close : Char) (items : List String) : List Char :=
  [',', ' '].intercalate (items.map String.toList) ++ [close]

/-- What comes behind the first of some items. -/
def behindFirst (close : Char) : List String → List Char
  | [] => [close]
  | items => ',' :: ' ' :: closed close items

theorem closed_cons (close : Char) (s : String) (items : List String) :
    closed close (s :: items) = s.toList ++ behindFirst close items := by
  cases items with
  | nil => simp [closed, behindFirst, List.intercalate]
  | cons t items =>
    have hbehind : behindFirst close (t :: items) = ',' :: ' ' :: closed close (t :: items) := rfl
    rw [hbehind, closed, closed, List.map_cons, List.map_cons, List.intercalate_cons_cons,
      List.append_assoc, List.append_assoc]
    rfl

theorem stops_behindFirst {close : Char} (hclose : isPunctuation close = true)
    (items : List String) (rest : List Char) : Stops (behindFirst close items ++ rest) := by
  cases items with
  | nil => exact stops_cons hclose _
  | cons t items => exact stops_cons rfl _

/-- **An item is known**: in front of punctuation no other item can be read in its place. -/
def Known (IsItem : String → Prop) (s : String) : Prop :=
  ∀ t, IsItem t → ∀ x y, Stops x → Stops y → s.toList ++ x = t.toList ++ y → s = t ∧ x = y

/-- **Items up to the closing bracket are known**, and what comes behind it, if each item is known
and none starts with the bracket. -/
theorem closed_append_injective {close : Char} {IsItem : String → Prop}
    (hclose : isPunctuation close = true) (hcomma : close ≠ ',')
    (hstart : ∀ s, IsItem s → ∃ c cs, s.toList = c :: cs ∧ c ≠ close)
    {items items' : List String} (h : ∀ s ∈ items, IsItem s ∧ Known IsItem s)
    (h' : ∀ s ∈ items', IsItem s) {x y : List Char}
    (heq : closed close items ++ x = closed close items' ++ y) : items = items' ∧ x = y := by
  -- the bracket closes at once only where there are no items
  have hempty : ∀ {s items x y}, IsItem s →
      closed close [] ++ x ≠ closed close (s :: items) ++ y := by
    intro s items x y hs heq
    obtain ⟨c, cs, hcs, hother⟩ := hstart s hs
    rw [closed_cons, hcs] at heq
    exact hother (List.cons.inj heq).1.symm
  induction items generalizing items' with
  | nil =>
    cases items' with
    | nil => exact ⟨rfl, (List.cons.inj heq).2⟩
    | cons t items' => exact absurd heq (hempty (h' t List.mem_cons_self))
  | cons s items ih =>
    obtain ⟨⟨hs, hknown⟩, hitems⟩ := List.forall_mem_cons.mp h
    cases items' with
    | nil => exact absurd heq.symm (hempty hs)
    | cons t items' =>
      obtain ⟨ht, hitems'⟩ := List.forall_mem_cons.mp h'
      rw [closed_cons, closed_cons, List.append_assoc, List.append_assoc] at heq
      obtain ⟨rfl, hbehind⟩ := hknown t ht _ _ (stops_behindFirst hclose items x)
        (stops_behindFirst hclose items' y) heq
      -- behind the first item there is a comma, unless it is the last
      cases items with
      | nil =>
        cases items' with
        | nil => exact ⟨rfl, (List.cons.inj hbehind).2⟩
        | cons t' items' => exact absurd (List.cons.inj hbehind).1 hcomma
      | cons s' items =>
        cases items' with
        | nil => exact absurd (List.cons.inj hbehind).1.symm hcomma
        | cons t' items' =>
          have hrest := (List.cons.inj (List.cons.inj hbehind).2).2
          obtain ⟨hsame, hxy⟩ := ih hitems hitems' hrest
          exact ⟨congrArg _ hsame, hxy⟩

/-! ### Texts -/

/-- **The texts of JSON values**: a word without punctuation, a string, an array of texts, an object
of texts under keys. -/
inductive IsText : String → Prop where
  | word {w : String} (hne : w.toList ≠ []) (h : Plain w) : IsText w
  | string (s : String) : IsText (string s)
  | array {items : List String} (h : ∀ s ∈ items, IsText s) : IsText (array items)
  | object {members : List (String × String)} (h : ∀ m ∈ members, IsText m.2) :
    IsText (object (members.map fun m => entry m.1 m.2))

/-- A member of an object: a text under a key. -/
def IsMember (m : String) : Prop := ∃ key s, IsText s ∧ m = entry key s

/-- An object of members is a text. -/
theorem isText_object {members : List String} (h : ∀ m ∈ members, IsMember m) :
    IsText (object members) := by
  obtain ⟨pairs, hpairs, rfl⟩ : ∃ pairs : List (String × String),
      (∀ m ∈ pairs, IsText m.2) ∧ members = pairs.map fun m => entry m.1 m.2 := by
    induction members with
    | nil => exact ⟨[], List.forall_mem_nil _, rfl⟩
    | cons m members ih =>
      obtain ⟨⟨key, s, hs, rfl⟩, hmembers⟩ := List.forall_mem_cons.mp h
      obtain ⟨pairs, hpairs, rfl⟩ := ih hmembers
      exact ⟨(key, s) :: pairs, List.forall_mem_cons.mpr ⟨hs, hpairs⟩, rfl⟩
  exact .object hpairs

theorem toList_array (items : List String) : (array items).toList = '[' :: closed ']' items := by
  simp [array, closed, String.toList_append, String.toList_intercalate]

theorem toList_object (members : List String) :
    (object members).toList = '\x7b' :: closed '\x7d' members := by
  simp [object, closed, String.toList_append, String.toList_intercalate]

theorem toList_entry (key s : String) :
    (entry key s).toList = (string key).toList ++ ':' :: ' ' :: s.toList := by
  simp [entry, String.toList_append]

/-- **A text is told by its first character**: a word by any but punctuation, the others by their
opening quote or bracket. -/
theorem IsText.of_append {t : String} (ht : IsText t) {c : Char} {cs y : List Char}
    (h : t.toList ++ y = c :: cs) :
    (isPunctuation c = false ∧ Plain t) ∨
    (c = '"' ∧ ∃ s, t = Json.string s) ∨
    (c = '[' ∧ ∃ items, t = Json.array items ∧ ∀ s ∈ items, IsText s) ∨
    (c = '\x7b' ∧ ∃ members, t = Json.object members ∧ ∀ m ∈ members, IsMember m) := by
  -- what follows the text does not matter, as no text is empty
  cases ht with
  | word hne hword =>
    obtain ⟨d, ds, hd⟩ := List.exists_cons_of_ne_nil hne
    rw [hd] at h
    obtain rfl : d = c := (List.cons.inj h).1
    exact .inl ⟨hword d (hd ▸ List.mem_cons_self), hword⟩
  | string s =>
    rw [toList_string] at h
    exact .inr (.inl ⟨(List.cons.inj h).1.symm, s, rfl⟩)
  | array hitems =>
    rw [toList_array] at h
    exact .inr (.inr (.inl ⟨(List.cons.inj h).1.symm, _, rfl, hitems⟩))
  | object hmembers =>
    rw [toList_object] at h
    refine .inr (.inr (.inr ⟨(List.cons.inj h).1.symm, _, rfl, List.forall_mem_map.mpr ?_⟩))
    exact fun m hm => ⟨m.1, m.2, hmembers m hm, rfl⟩

/-- No text is empty, and none starts with a closing bracket. -/
theorem IsText.start {s : String} (h : IsText s) : ∃ c cs, s.toList = c :: cs ∧ c ≠ ']' := by
  obtain ⟨c, cs, hcs⟩ : ∃ c cs, s.toList = c :: cs := by
    cases h with
    | word hne _ => exact List.exists_cons_of_ne_nil hne
    | string s => exact ⟨_, _, toList_string s⟩
    | array _ => exact ⟨_, _, toList_array _⟩
    | object _ => exact ⟨_, _, toList_object _⟩
  refine ⟨c, cs, hcs, ?_⟩
  -- each kind of text begins with a character of its own, and none with a closing bracket
  rintro rfl
  rcases h.of_append ((List.append_nil _).trans hcs) with ⟨h, -⟩ | ⟨h, -⟩ | ⟨h, -⟩ | ⟨h, -⟩
  all_goals exact absurd h (by decide)

theorem IsMember.start {m : String} (h : IsMember m) : ∃ c cs, m.toList = c :: cs ∧ c ≠ '\x7d' := by
  obtain ⟨key, s, -, rfl⟩ := h
  rw [toList_entry, toList_string]
  exact ⟨_, _, rfl, by decide⟩

/-- A member is known if the text under its key is. -/
theorem known_entry {key s : String} (h : Known IsText s) : Known IsMember (entry key s) := by
  rintro _ ⟨key', s', hs', rfl⟩ x y hx hy heq
  rw [toList_entry, toList_entry, List.append_assoc, List.append_assoc] at heq
  obtain ⟨rfl, hbehind⟩ := string_append_injective heq
  obtain ⟨rfl, rfl⟩ := h s' hs' x y hx hy (List.cons.inj (List.cons.inj hbehind).2).2
  exact ⟨rfl, rfl⟩

/-- A word in front of punctuation is known from the whole. -/
theorem word_append_injective {w w' x y : List Char} (hw : ∀ c ∈ w, isPunctuation c = false)
    (hw' : ∀ c ∈ w', isPunctuation c = false) (hx : Stops x) (hy : Stops y)
    (h : w ++ x = w' ++ y) : w = w' ∧ x = y := by
  -- what follows a word is punctuation, so a longer word would begin with some
  have hstop : ∀ {c cs z}, isPunctuation c = false → Stops z → z ≠ c :: cs := by
    rintro c cs _ hc hz rfl
    rw [hz c rfl] at hc
    cases hc
  induction w generalizing w' with
  | nil =>
    cases w' with
    | nil => exact ⟨rfl, h⟩
    | cons c w' => exact absurd h (hstop (hw' c List.mem_cons_self) hx)
  | cons c w ih =>
    obtain ⟨hc, hw⟩ := List.forall_mem_cons.mp hw
    cases w' with
    | nil => exact absurd h.symm (hstop hc hy)
    | cons c' w' =>
      obtain ⟨rfl, hrest⟩ := List.cons.inj h
      obtain ⟨rfl, hxy⟩ := ih hw (List.forall_mem_cons.mp hw').2 hrest
      exact ⟨rfl, hxy⟩

/-- **An array and what comes behind it** are known from the whole, if its items are known. -/
theorem array_append_injective {items items' : List String}
    (h : ∀ s ∈ items, IsText s ∧ Known IsText s) (h' : ∀ s ∈ items', IsText s) {x y : List Char}
    (heq : (array items).toList ++ x = (array items').toList ++ y) : items = items' ∧ x = y := by
  rw [toList_array, toList_array] at heq
  exact closed_append_injective rfl (by decide) (fun _ hs => hs.start) h h' (List.cons.inj heq).2

/-- **An object and what comes behind it** are known from the whole, if its members are known. -/
theorem object_append_injective {members members' : List String}
    (h : ∀ m ∈ members, IsMember m ∧ Known IsMember m) (h' : ∀ m ∈ members', IsMember m)
    {x y : List Char} (heq : (object members).toList ++ x = (object members').toList ++ y) :
    members = members' ∧ x = y := by
  rw [toList_object, toList_object] at heq
  exact closed_append_injective rfl (by decide) (fun _ hm => hm.start) h h' (List.cons.inj heq).2

/-- **A text in front of punctuation is known from the whole.** -/
theorem IsText.known {s : String} (hs : IsText s) : Known IsText s := by
  -- the first character tells what the other text is
  induction hs with
  | @word w hne hword =>
    intro t ht x y hx hy heq
    obtain ⟨c, cs, hcs⟩ := List.exists_cons_of_ne_nil hne
    have hc : isPunctuation c = false := hword c (hcs ▸ List.mem_cons_self)
    have hfirst : t.toList ++ y = c :: (cs ++ x) := by rw [← heq, hcs, List.cons_append]
    rcases ht.of_append hfirst with ⟨-, ht⟩ | ⟨rfl, -⟩ | ⟨rfl, -⟩ | ⟨rfl, -⟩
    · obtain ⟨hsame, hxy⟩ := word_append_injective hword ht hx hy heq
      exact ⟨String.toList_inj.mp hsame, hxy⟩
    all_goals exact absurd hc (by decide)
  | string s =>
    intro t ht x y hx hy heq
    have hfirst := heq.symm
    rw [toList_string s, List.cons_append] at hfirst
    rcases ht.of_append hfirst with ⟨h, -⟩ | ⟨-, s', rfl⟩ | ⟨h, -⟩ | ⟨h, -⟩
    · exact absurd h (by decide)
    · obtain ⟨rfl, hxy⟩ := string_append_injective heq
      exact ⟨rfl, hxy⟩
    all_goals exact absurd h (by decide)
  | @array items hitems ih =>
    intro t ht x y hx hy heq
    have hfirst := heq.symm
    rw [toList_array items, List.cons_append] at hfirst
    rcases ht.of_append hfirst with ⟨h, -⟩ | ⟨h, -⟩ | ⟨-, items', rfl, hitems'⟩ | ⟨h, -⟩
    · exact absurd h (by decide)
    · exact absurd h (by decide)
    · obtain ⟨rfl, hxy⟩ := array_append_injective (fun s hs => ⟨hitems s hs, ih s hs⟩) hitems' heq
      exact ⟨rfl, hxy⟩
    · exact absurd h (by decide)
  | @object members hmembers ih =>
    intro t ht x y hx hy heq
    have hfirst := heq.symm
    rw [toList_object, List.cons_append] at hfirst
    rcases ht.of_append hfirst with ⟨h, -⟩ | ⟨h, -⟩ | ⟨h, -⟩ | ⟨-, members', rfl, hmembers'⟩
    · exact absurd h (by decide)
    · exact absurd h (by decide)
    · exact absurd h (by decide)
    · -- a member is known if its value is, as the key is a string
      have hknown : ∀ m ∈ members.map (fun m => entry m.1 m.2), IsMember m ∧ Known IsMember m :=
        List.forall_mem_map.mpr fun m hm =>
          ⟨⟨m.1, m.2, hmembers m hm, rfl⟩, known_entry (ih m hm)⟩
      obtain ⟨hsame, hxy⟩ := object_append_injective hknown hmembers' heq
      exact ⟨congrArg Json.object hsame, hxy⟩

/-! ### Parts of a text -/

/-- What is the same is the same with nothing behind it. -/
theorem toList_append_nil_eq {s t : String} (h : s = t) : s.toList ++ [] = t.toList ++ [] := by
  rw [h]

/-- The items of an array are known from its text. -/
theorem array_injective {items items' : List String} (h : ∀ s ∈ items, IsText s)
    (h' : ∀ s ∈ items', IsText s) (heq : array items = array items') : items = items' := by
  have hknown : ∀ s ∈ items, IsText s ∧ Known IsText s := fun s hs => ⟨h s hs, (h s hs).known⟩
  exact (array_append_injective hknown h' (toList_append_nil_eq heq)).1

/-- The members of an object are known from its text. -/
theorem object_injective {members members' : List String} (h : ∀ m ∈ members, IsMember m)
    (h' : ∀ m ∈ members', IsMember m) (heq : object members = object members') :
    members = members' := by
  have hknown : ∀ m ∈ members, IsMember m ∧ Known IsMember m := by
    intro m hm
    obtain ⟨key, s, hs, rfl⟩ := h m hm
    exact ⟨⟨key, s, hs, rfl⟩, known_entry hs.known⟩
  exact (object_append_injective hknown h' (toList_append_nil_eq heq)).1

/-- A string is known from its text. -/
theorem string_injective {s s' : String} (heq : string s = string s') : s = s' :=
  (string_append_injective (toList_append_nil_eq heq)).1

/-- Under one key, the text of a member is known from the member. -/
theorem entry_injective {key s s' : String} (heq : entry key s = entry key s') : s = s' := by
  have hchars := congrArg String.toList heq
  rw [toList_entry, toList_entry] at hchars
  have hbehind := List.append_cancel_left hchars
  exact String.toList_inj.mp (List.cons.inj (List.cons.inj hbehind).2).2

/-! ### Words -/

@[simp] theorem plain_append {s t : String} : Plain (s ++ t) ↔ Plain s ∧ Plain t := by
  rw [Plain, String.toList_append, List.forall_mem_append]
  rfl

@[simp] theorem plain_repr (n : Nat) : Plain n.repr := by
  -- no digit is punctuation
  have hdigit : ∀ c : Char, isPunctuation c = true → c.isDigit = false := by
    intro c hc
    simp only [isPunctuation, List.contains_iff_mem, List.mem_cons, List.not_mem_nil,
      or_false] at hc
    rcases hc with rfl | rfl | rfl | rfl | rfl | rfl | rfl | rfl <;> rfl
  intro c hc
  rw [Nat.toList_repr] at hc
  have hc' : c.isDigit = true := Nat.isDigit_of_mem_toDigits (by decide) (by decide) hc
  cases hpunctuation : isPunctuation c with
  | false => rfl
  | true =>
    rw [hdigit c hpunctuation] at hc'
    cases hc'

theorem toList_repr_ne_nil (n : Nat) : n.repr.toList ≠ [] := by
  rw [Nat.toList_repr]
  exact Nat.toDigits_ne_nil

@[simp] theorem plain_digitsText (ds : List (Fin 10)) : Plain (digitsText ds) := by
  have hdigit : ∀ d : Fin 10, isPunctuation (digitChar d) = false := by decide
  intro c hc
  rw [digitsText, String.toList_ofList] at hc
  obtain ⟨d, -, rfl⟩ := List.mem_map.mp hc
  exact hdigit d

@[simp] theorem plain_padded (width n : Nat) : Plain (padded width n) := by
  rw [padded, plain_append]
  refine ⟨fun c hc => ?_, plain_repr n⟩
  rw [String.toList_ofList] at hc
  rw [(List.mem_replicate.mp hc).2]
  rfl

@[simp] theorem plain_int (n : Int) : Plain (toString n) := by
  cases n with
  | ofNat n => exact plain_repr n
  | negSucc n =>
    have hminus : toString (Int.negSucc n) = "-" ++ (n + 1).repr := rfl
    rw [hminus]
    exact plain_append.mpr ⟨by decide, plain_repr _⟩

@[simp] theorem plain_float (f : FloatText) : Plain f.json := by
  cases f with
  | nan => exact (by decide : Plain "NaN")
  | infinity negative =>
    show Plain (if negative then "-Infinity" else "Infinity")
    cases negative <;> decide
  | finite negative whole fraction exponent =>
    -- each of the parts has signs, digits, a point or a letter only
    have hsign : Plain (if negative then "-" else "") := by cases negative <;> decide
    have hfraction : Plain (FloatText.fractionText fraction) := by
      unfold FloatText.fractionText
      split
      · decide
      · exact plain_append.mpr ⟨by decide, plain_digitsText _⟩
    have hexponent : Plain (FloatText.exponentText exponent) := by
      unfold FloatText.exponentText
      split
      · decide
      · exact plain_append.mpr ⟨by split <;> decide, plain_padded _ _⟩
    show Plain (FloatText.finiteText negative whole fraction exponent)
    simp [FloatText.finiteText, hsign, hfraction, hexponent]

/-- A number is a text. -/
theorem isText_int (n : Int) : IsText (toString n) := by
  refine .word ?_ (plain_int n)
  cases n with
  | ofNat n => exact toList_repr_ne_nil n
  | negSucc n =>
    have hminus : toString (Int.negSucc n) = "-" ++ (n + 1).repr := rfl
    rw [hminus, String.toList_append]
    exact List.cons_ne_nil _ _

/-- So is a floating point number. -/
theorem isText_float (f : FloatText) : IsText f.json := by
  refine .word ?_ (plain_float f)
  cases f with
  | nan => decide
  | infinity negative => cases negative <;> decide
  | finite negative whole fraction exponent => simp [FloatText.json, FloatText.finiteText]

/-- A string has quotes around it, so it is no word. -/
theorem not_plain_string (s : String) : ¬ Plain (string s) := by
  intro h
  have hquote : '"' ∈ (string s).toList := by
    rw [toList_string]
    exact List.mem_cons_self
  exact absurd (h '"' hquote) (by decide)

/-- An object has a brace in front, so it is no string. -/
theorem object_ne_string (members : List String) (s : String) : object members ≠ string s := by
  intro heq
  have hchars := congrArg String.toList heq
  rw [toList_object, toList_string] at hchars
  exact absurd (List.cons.inj hchars).1 (by decide)

end BoundSql.Json
