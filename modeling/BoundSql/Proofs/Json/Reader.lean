import BoundSql.Proofs.Json.Grammar

/-!
# Reading JSON

A text is read from the front. What comes first tells what follows: a quote, a bracket, a brace or a
word. A word goes as far as there are characters of words, so there is never a choice, and a text is
read in one way at most.

Arrays and objects are read by one reader of items, which is given the reader of an item. How deep
values may lie and how many items may follow is bounded by the length of the text, which is always
enough.

* `readListed_append`, `follows_readListed` — items are read exactly as the grammar has them;
* `reads_readValue`, `follows_readValue` — and so are values;
* `read?_eq_some_iff` — the reader reads JSON texts as what they stand for, and nothing else.
-/

namespace BoundSql.Json

open Text

/-! ### The reader -/

/-- A reader: what is read from the front of a text, and the rest. -/
abbrev Reader (α : Type) := List Char → Option (α × List Char)

/-- A text without the gap in front. -/
def skip (cs : List Char) : List Char := cs.dropWhile isGapChar

/-- What a word stands for. -/
def word? (cs : List Char) : Option Value :=
  if cs = ['n', 'u', 'l', 'l'] then some .null
  else if cs = ['t', 'r', 'u', 'e'] then some (.bool true)
  else if cs = ['f', 'a', 'l', 's', 'e'] then some (.bool false)
  else (number? cs).map numberValue

/-- Reads a word. -/
def readWord : Reader Value := fun cs =>
  (word? (cs.takeWhile isWordChar)).map (·, cs.dropWhile isWordChar)

/-- Reads a string. -/
def readString : Reader String
  | '"' :: cs => (readChars cs).map fun (us, rest) => (String.ofList (decode us), rest)
  | _ => none

section Items

variable {α : Type} (item : Reader α) (close : Char)

/-- Reads items, at least one, and the bracket behind them. -/
def readJoined : Nat → Reader (List α)
  | 0, _ => none
  | fuel + 1, cs => match item (skip cs) with
    | none => none
    | some (x, behind) => match skip behind with
      | [] => none
      | c :: rest =>
        if c = ',' then (readJoined fuel rest).map fun (xs, rest) => (x :: xs, rest)
        else if c = close then some ([x], rest)
        else none

/-- Reads items, if there are any, and the bracket behind them. -/
def readListed : Reader (List α) := fun cs =>
  match skip cs with
  | [] => none
  | c :: rest => if c = close then some ([], rest) else readJoined item close cs.length cs

end Items

/-- Reads a member of an object. -/
def readMember (value : Reader Value) : Reader (Value × Value) := fun cs =>
  (readString cs).bind fun (key, behind) => match skip behind with
    | ':' :: rest => (value (skip rest)).map fun (v, rest) => ((.text key, v), rest)
    | _ => none

/-- **Reads a value** that lies at most so deep. -/
def readValue : Nat → Reader Value
  | 0, _ => none
  | depth + 1, cs => match cs with
    | '"' :: _ => (readString cs).map fun (s, rest) => (.text s, rest)
    | '[' :: behind =>
      (readListed (readValue depth) ']' behind).map fun (xs, rest) => (.list xs, rest)
    | '\x7b' :: behind =>
      (readListed (readMember (readValue depth)) '\x7d' behind).map fun (es, rest) =>
        (.map es, rest)
    | _ => readWord cs

/-- **Reads a JSON text.** -/
def read? (s : String) : Option Value :=
  (readValue s.toList.length (skip s.toList)).bind fun (v, rest) =>
    if skip rest = [] then some v else none

/-! ### Gaps and words -/

/-- What does not start with a blank has no gap in front. -/
def NoGap (cs : List Char) : Prop := ∀ c ∈ cs.head?, isGapChar c = false

theorem noGap_nil : NoGap [] := fun _ h => nomatch h

/-- A gap is skipped, as far as it goes. -/
theorem skip_append {gap cs : List Char} (hgap : IsGap gap) (hcs : NoGap cs) :
    skip (gap ++ cs) = cs := by
  rw [skip, List.dropWhile_append_of_pos hgap]
  cases cs with
  | nil => rfl
  | cons c cs => exact List.dropWhile_cons_of_neg (by simp [hcs c rfl])

theorem exists_gap (cs : List Char) : ∃ gap, IsGap gap ∧ cs = gap ++ skip cs :=
  ⟨cs.takeWhile isGapChar, List.all_eq_true.mp List.all_takeWhile,
    List.takeWhile_append_dropWhile.symm⟩

/-- What ends a word: nothing, or a character that is in no word. -/
def EndsWord (rest : List Char) : Prop := ∀ c ∈ rest.head?, isWordChar c = false

theorem endsWord_nil : EndsWord [] := fun _ h => nomatch h

/-- A word is taken as far as it goes. -/
theorem takeWhile_word {w rest : List Char} (hw : ∀ c ∈ w, isWordChar c = true)
    (hrest : EndsWord rest) :
    (w ++ rest).takeWhile isWordChar = w ∧ (w ++ rest).dropWhile isWordChar = rest := by
  rw [List.takeWhile_append_of_pos hw, List.dropWhile_append_of_pos hw]
  cases rest with
  | nil => exact ⟨List.append_nil w, rfl⟩
  | cons c cs =>
    have hc : ¬ isWordChar c = true := by simp [hrest c rfl]
    rw [List.takeWhile_cons_of_neg hc, List.dropWhile_cons_of_neg hc]
    exact ⟨List.append_nil w, rfl⟩

/-- **A word is read** as what it stands for, and what stands for nothing is not read. -/
theorem word?_eq_some_iff {cs : List Char} {v : Value} : word? cs = some v ↔ IsWord cs v := by
  constructor
  · intro h
    unfold word? at h
    split at h
    · subst cs
      cases h
      exact .null
    split at h
    · subst cs
      cases h
      exact .yes
    split at h
    · subst cs
      cases h
      exact .no
    -- what is none of the three words has to be a number
    obtain ⟨n, hn, rfl⟩ := Option.map_eq_some_iff.mp h
    exact .number (number?_eq_some_iff.mp hn)
  · intro h
    cases h with
    | number hnumber =>
      -- none of the other words is a number
      have hread := number?_eq_some_iff.mpr hnumber
      have hother {w : List Char} (hw : number? w = none) : cs ≠ w := by
        rintro rfl
        rw [hw] at hread
        cases hread
      rw [word?, if_neg (hother rfl), if_neg (hother rfl), if_neg (hother rfl), hread]
      rfl
    | _ => rfl

theorem IsWord.word {cs : List Char} {v : Value} (h : IsWord cs v) :
    cs ≠ [] ∧ ∀ c ∈ cs, isWordChar c = true := by
  cases h with
  | number hnumber => exact hnumber.word
  | _ => exact ⟨List.cons_ne_nil _ _, List.all_eq_true.mp rfl⟩

/-! ### Readers that follow the grammar -/

/-- A reader reads a text as a value, whatever comes behind it, unless that prolongs a word. -/
def Reads {α : Type} (r : Reader α) (cs : List Char) (a : α) : Prop :=
  ∀ rest, EndsWord rest → r (cs ++ rest) = some (a, rest)

/-- A reader reads nothing but what a relation allows. -/
def Follows {α : Type} (r : Reader α) (P : List Char → α → Prop) : Prop :=
  ∀ {cs a rest}, r cs = some (a, rest) → ∃ front, P front a ∧ cs = front ++ rest

theorem reads_readWord {cs : List Char} {v : Value} (h : IsWord cs v) : Reads readWord cs v := by
  intro rest hrest
  obtain ⟨htake, hdrop⟩ := takeWhile_word h.word.2 hrest
  rw [readWord, htake, hdrop, word?_eq_some_iff.mpr h]
  rfl

theorem follows_readWord : Follows readWord IsWord := by
  intro cs v rest h
  obtain ⟨w, hw, heq⟩ := Option.map_eq_some_iff.mp h
  cases heq
  exact ⟨_, word?_eq_some_iff.mp hw, List.takeWhile_append_dropWhile.symm⟩

theorem readString_append {cs : List Char} {s : String} (h : IsString cs s) (rest : List Char) :
    readString (cs ++ rest) = some (s, rest) := by
  cases h with
  | @mk cs us h =>
    have hread := readChars_append h rest
    rw [List.cons_append, List.append_assoc, List.singleton_append, readString, hread]
    rfl

theorem follows_readString : Follows readString IsString := by
  intro cs s rest h
  unfold readString at h
  split at h
  · obtain ⟨⟨us, _⟩, hread, heq⟩ := Option.map_eq_some_iff.mp h
    cases heq
    obtain ⟨front, hfront, rfl⟩ := isChars_of_readChars hread
    exact ⟨_, .mk hfront, by simp⟩
  · cases h

/-! ### Items -/

theorem isWordChar_of_isGapChar {c : Char} (h : isGapChar c = true) : isWordChar c = false := by
  simp only [isGapChar, List.contains_iff_mem, List.mem_cons, List.not_mem_nil, or_false] at h
  rcases h with rfl | rfl | rfl | rfl <;> rfl

/-- A gap ends a word, and so does what stands behind it. -/
theorem endsWord_append {gap : List Char} (hgap : IsGap gap) {rest : List Char}
    (hrest : EndsWord rest) : EndsWord (gap ++ rest) := by
  cases gap with
  | nil => exact hrest
  | cons b gap =>
    exact forall_mem_head?_cons (isWordChar_of_isGapChar (hgap b List.mem_cons_self)) _

theorem endsWord_cons {c : Char} (h : isWordChar c = false) (rest : List Char) :
    EndsWord (c :: rest) :=
  forall_mem_head?_cons h rest

/-- What an item starts with: neither a blank nor the closing bracket. -/
def Starts (close : Char) (cs : List Char) : Prop :=
  ∃ c ds, cs = c :: ds ∧ isGapChar c = false ∧ c ≠ close

theorem Starts.noGap {close : Char} {cs : List Char} (h : Starts close cs) (rest : List Char) :
    NoGap (cs ++ rest) := by
  obtain ⟨c, ds, rfl, hc, -⟩ := h
  exact forall_mem_head?_cons hc _

/-- A sign behind an item: neither a blank nor in a word. -/
structure IsSign (c : Char) : Prop where
  noGap : isGapChar c = false
  noWord : isWordChar c = false

/-- A closing bracket: a sign that is no comma. -/
structure Closes (c : Char) : Prop extends IsSign c where
  noComma : c ≠ ','

theorem isSign_comma : IsSign ',' := ⟨rfl, rfl⟩

theorem closes_bracket : Closes ']' := ⟨⟨rfl, rfl⟩, by decide⟩

theorem closes_brace : Closes '\x7d' := ⟨⟨rfl, rfl⟩, by decide⟩

theorem IsSign.skip {c : Char} (h : IsSign c) {gap : List Char} (hgap : IsGap gap)
    (rest : List Char) : skip (gap ++ c :: rest) = c :: rest :=
  skip_append hgap (forall_mem_head?_cons h.noGap rest)

section Items

variable {α : Type} {item : Reader α} {close : Char}

/-- **An item is read** with the gaps around it; the sign behind it tells how it goes on. -/
theorem readJoined_item {cs gap gap' : List Char} {a : α} (hread : Reads item cs a)
    (hstart : Starts close cs) (hgap : IsGap gap) (hgap' : IsGap gap') {c : Char} (hc : IsSign c)
    (fuel : Nat) (rest : List Char) :
    readJoined item close (fuel + 1) (gap ++ (cs ++ (gap' ++ c :: rest))) =
      if c = ',' then (readJoined item close fuel rest).map fun (xs, rest) => (a :: xs, rest)
      else if c = close then some ([a], rest)
      else none := by
  have hbehind := hread _ (endsWord_append hgap' (endsWord_cons hc.noWord rest))
  rw [readJoined, skip_append hgap (hstart.noGap _), hbehind]
  dsimp only
  rw [hc.skip hgap']

theorem readJoined_append (hclose : Closes close) {items : List (List Char × α)}
    (hread : ∀ i ∈ items, Reads item i.1 i.2) (hstart : ∀ i ∈ items, Starts close i.1)
    {cs : List Char} (h : Joined close (items.map (·.1)) cs) {fuel : Nat}
    (hfuel : items.length ≤ fuel) (rest : List Char) :
    readJoined item close fuel (cs ++ rest) = some (items.map (·.2), rest) := by
  generalize htexts : items.map (·.1) = texts at h
  -- by induction on the grammar of the items, each of which uses up one step of the bound
  induction h generalizing items fuel with
  | last hgap hgap' =>
    obtain ⟨i, rfl, rfl⟩ := List.map_eq_singleton_iff.mp htexts
    obtain ⟨fuel, rfl⟩ := Nat.exists_eq_add_of_le' (m := 1) hfuel
    simp only [List.append_assoc, List.singleton_append]
    rw [readJoined_item (hread i List.mem_cons_self) (hstart i List.mem_cons_self) hgap hgap'
      hclose.toIsSign, if_neg hclose.noComma, if_pos rfl]
    rfl
  | more hgap hgap' _ ih =>
    obtain ⟨i, items, rfl, rfl, rfl⟩ := List.map_eq_cons_iff.mp htexts
    obtain ⟨hi, hitems⟩ := List.forall_mem_cons.mp hread
    obtain ⟨hi', hitems'⟩ := List.forall_mem_cons.mp hstart
    obtain ⟨fuel, rfl⟩ := Nat.exists_eq_add_of_le' (Nat.le_trans (Nat.le_add_left 1 _) hfuel)
    simp only [List.append_assoc, List.cons_append]
    rw [readJoined_item hi hi' hgap hgap' isSign_comma, if_pos rfl,
      ih hitems hitems' (Nat.le_of_succ_le_succ hfuel) rfl]
    rfl

/-- There are no more items than characters, and none is longer than all of them together. -/
theorem Joined.length_le {items : List (List Char)} {cs : List Char} (h : Joined close items cs) :
    items.length ≤ cs.length ∧ ∀ i ∈ items, i.length ≤ cs.length := by
  induction h with
  | last _ _ =>
    simp
    omega
  | more _ _ _ ih =>
    -- a comma for each item but the last, so there are enough characters
    obtain ⟨hcount, hlength⟩ := ih
    simp
    refine ⟨by omega, by omega, fun i hi => ?_⟩
    have hitem := hlength i hi
    omega

theorem Joined.exists_first {items : List (List Char)} {cs : List Char}
    (h : Joined close items cs) :
    ∃ gap i behind, IsGap gap ∧ i ∈ items ∧ cs = gap ++ (i ++ behind) := by
  cases h with
  | last hgap _ => exact ⟨_, _, _, hgap, List.mem_cons_self, rfl⟩
  | more hgap _ _ => exact ⟨_, _, _, hgap, List.mem_cons_self, rfl⟩

/-- **Items are read** up to the closing bracket. -/
theorem readListed_append (hclose : Closes close) {items : List (List Char × α)}
    (hread : ∀ i ∈ items, Reads item i.1 i.2) (hstart : ∀ i ∈ items, Starts close i.1)
    {cs : List Char} (h : Listed close (items.map (·.1)) cs) (rest : List Char) :
    readListed item close (cs ++ rest) = some (items.map (·.2), rest) := by
  generalize htexts : items.map (·.1) = texts at h
  cases h with
  | none hgap =>
    obtain rfl := List.map_eq_nil_iff.mp htexts
    rw [readListed, List.append_assoc, List.singleton_append, hclose.skip hgap]
    exact if_pos rfl
  | some h =>
    subst htexts
    -- the first item does not start with the bracket
    obtain ⟨c, ds, hskip, hc⟩ : ∃ c ds, skip (cs ++ rest) = c :: ds ∧ c ≠ close := by
      obtain ⟨gap, i, behind, hgap, hi, rfl⟩ := h.exists_first
      obtain ⟨pair, hpair, rfl⟩ := List.mem_map.mp hi
      have hfirst := hstart pair hpair
      rw [List.append_assoc, List.append_assoc, skip_append hgap (hfirst.noGap _)]
      obtain ⟨c, ds, hcs, -, hc⟩ := hfirst
      exact ⟨c, _, by rw [hcs]; rfl, hc⟩
    -- every item has a character, so the fuel lasts
    have hfuel : items.length ≤ (cs ++ rest).length := by
      have hcount := h.length_le.1
      rw [List.length_map] at hcount
      rw [List.length_append]
      omega
    rw [readListed, hskip]
    dsimp only
    rw [if_neg hc]
    exact readJoined_append hclose hread hstart h hfuel rest

/-- Items of a relation up to a closing bracket. -/
def ListedOf (P : List Char → α → Prop) (close : Char) (cs : List Char) (as : List α) : Prop :=
  ∃ items : List (List Char × α),
    (∀ i ∈ items, P i.1 i.2) ∧ Listed close (items.map (·.1)) cs ∧ as = items.map (·.2)

variable {P : List Char → α → Prop}

theorem exists_joined (h : Follows item P) {fuel : Nat} {cs rest : List Char} {as : List α}
    (hread : readJoined item close fuel cs = some (as, rest)) :
    ∃ items : List (List Char × α), ∃ front, (∀ i ∈ items, P i.1 i.2) ∧
      Joined close (items.map (·.1)) front ∧ as = items.map (·.2) ∧ cs = front ++ rest := by
  induction fuel generalizing cs as with
  | zero => cases hread
  | succ fuel ih =>
    obtain ⟨gap, hgap, hcs⟩ := exists_gap cs
    rw [readJoined] at hread
    split at hread
    · cases hread
    -- an item between two gaps; the next character decides how it goes on
    rename_i x behind hitem
    obtain ⟨front, hfront, hskip⟩ := h hitem
    obtain ⟨gap', hgap', hbehind⟩ := exists_gap behind
    split at hread
    · cases hread
    rename_i c last hlast
    rw [hlast] at hbehind
    split at hread
    · subst c
      -- a comma: there is another item
      obtain ⟨⟨xs, _⟩, hxs, heq⟩ := Option.map_eq_some_iff.mp hread
      cases heq
      obtain ⟨items, front', hitems, hjoined, rfl, rfl⟩ := ih hxs
      refine ⟨(front, x) :: items, _, List.forall_mem_cons.mpr ⟨hfront, hitems⟩,
        .more hgap hgap' hjoined, rfl, ?_⟩
      rw [hcs, hskip, hbehind]
      simp
    split at hread
    · subst c
      cases hread
      -- the closing bracket: this was the last one
      refine ⟨[(front, x)], _, List.forall_mem_singleton.mpr hfront, .last hgap hgap', rfl, ?_⟩
      rw [hcs, hskip, hbehind]
      simp
    · cases hread

/-- **Nothing but items is read**, if nothing but items is read by the reader of an item. -/
theorem follows_readListed (h : Follows item P) :
    Follows (readListed item close) (ListedOf P close) := by
  intro cs as rest hread
  obtain ⟨gap, hgap, hcs⟩ := exists_gap cs
  unfold readListed at hread
  split at hread
  · cases hread
  rename_i c last hlast
  split at hread
  · -- the closing bracket at once: nothing is listed
    subst c
    cases hread
    rw [hlast] at hcs
    exact ⟨_, ⟨[], List.forall_mem_nil _, .none hgap, rfl⟩, by simp [hcs]⟩
  · obtain ⟨items, front, hitems, hjoined, has, hfront⟩ := exists_joined h hread
    exact ⟨front, ⟨items, hitems, .some hjoined, has⟩, hfront⟩

end Items

/-! ### Members -/

theorem isSign_colon : IsSign ':' := ⟨rfl, rfl⟩

/-- A member is read if its value is. -/
theorem reads_readMember {value : Reader Value} {m : Member} (hm : m.IsKeyed)
    (hread : Reads value m.chars m.value) {close : Char} (hstart : Starts close m.chars) :
    Reads (readMember value) m.text m.entry := by
  intro rest hrest
  -- the key, the colon and the value, with gaps on both sides of the colon
  have htext : m.text ++ rest =
      m.quoted ++ (m.before ++ ':' :: (m.after ++ (m.chars ++ rest))) := by
    simp [Member.text]
  rw [htext, readMember, readString_append hm.key, Option.bind_some]
  dsimp only
  rw [isSign_colon.skip hm.before]
  show (value (skip (m.after ++ (m.chars ++ rest)))).map _ = _
  rw [skip_append hm.after (hstart.noGap rest), hread rest hrest]
  rfl

/-- Nothing but a member is read, if nothing but a value is read behind the colon. -/
theorem follows_readMember {value : Reader Value} {P : List Char → Value → Prop}
    (h : Follows value P) : Follows (readMember value) fun cs e =>
      ∃ m : Member, (m.IsKeyed ∧ P m.chars m.value) ∧ (cs, e) = (m.text, m.entry) := by
  intro cs e rest hread
  obtain ⟨⟨key, behind⟩, hkey, hmember⟩ := Option.bind_eq_some_iff.mp hread
  obtain ⟨quoted, hquoted, rfl⟩ := follows_readString hkey
  obtain ⟨before, hbefore, hcolon⟩ := exists_gap behind
  dsimp only at hmember
  split at hmember
  · -- a member has a colon between its key and its value
    rename_i last hlast
    obtain ⟨⟨v, _⟩, hvalue, heq⟩ := Option.map_eq_some_iff.mp hmember
    cases heq
    obtain ⟨after, hafter, hlast'⟩ := exists_gap last
    obtain ⟨chars, hchars, hskip⟩ := h hvalue
    refine ⟨_, ⟨⟨quoted, key, before, after, chars, v⟩, ⟨⟨hquoted, hbefore, hafter⟩, hchars⟩, rfl⟩,
      ?_⟩
    rw [hcolon, hlast, hlast', hskip]
    simp [Member.text]
  · cases hmember

/-! ### Values -/

/-- No value starts with a blank or a closing bracket. -/
theorem Denotes.starts {cs : List Char} {v : Value} (h : Denotes cs v) : Starts ']' cs := by
  cases h with
  | word h =>
    -- a word begins with a letter, a digit or a minus, and none of them is a blank
    obtain ⟨hne, hword⟩ := h.word
    obtain ⟨c, ds, rfl⟩ := List.exists_cons_of_ne_nil hne
    have hc : isWordChar c = true := hword c List.mem_cons_self
    refine ⟨c, ds, rfl, ?_, ?_⟩
    · cases hgap : isGapChar c with
      | false => rfl
      | true =>
        rw [isWordChar_of_isGapChar hgap] at hc
        cases hc
    · rintro rfl
      cases hc
  | string h =>
    cases h
    exact ⟨_, _, rfl, rfl, by decide⟩
  | array _ _ => exact ⟨_, _, rfl, rfl, by decide⟩
  | object _ _ _ => exact ⟨_, _, rfl, rfl, by decide⟩

theorem Member.IsKeyed.starts {m : Member} (h : m.IsKeyed) : Starts '\x7d' m.text := by
  obtain ⟨cs, us, hcs, -⟩ : ∃ cs us, m.quoted = '"' :: (cs ++ ['"']) ∧ IsChars cs us := by
    have hkey := h.key
    generalize m.quoted = quoted, m.key = key at hkey
    cases hkey with
    | mk h => exact ⟨_, _, rfl, h⟩
  exact ⟨'"', _, by rw [Member.text, hcs]; rfl, rfl, by decide⟩

theorem Listed.length_le {close : Char} {items : List (List Char)} {cs : List Char}
    (h : Listed close items cs) : ∀ i ∈ items, i.length ≤ cs.length := by
  cases h with
  | none _ => exact List.forall_mem_nil _
  | some h => exact h.length_le.2

/-- A word does not start like any other value. -/
theorem readValue_of_word {cs : List Char} (h : ∀ c ∈ cs.head?, isWordChar c = true) (depth : Nat) :
    readValue (depth + 1) cs = readWord cs := by
  rw [readValue]
  · rintro behind rfl
    exact absurd (h '"' rfl) (by decide)
  · rintro behind rfl
    exact absurd (h '[' rfl) (by decide)
  · rintro behind rfl
    exact absurd (h '\x7b' rfl) (by decide)

/-- **A value is read** if it is allowed to lie as deep as it is long. -/
theorem reads_readValue {cs : List Char} {v : Value} (h : Denotes cs v) {depth : Nat}
    (hdepth : cs.length ≤ depth) : Reads (readValue depth) cs v := by
  -- by induction on the grammar; behind a bracket both the text and the bound are shorter by one
  induction h generalizing depth with
  | @word cs v h =>
    intro rest hrest
    obtain ⟨hne, hword⟩ := h.word
    obtain ⟨c, ds, rfl⟩ := List.exists_cons_of_ne_nil hne
    obtain ⟨depth, rfl⟩ := Nat.exists_eq_add_of_le' (m := 1) (Nat.le_trans (by simp) hdepth)
    have hhead : ∀ x ∈ ((c :: ds) ++ rest).head?, isWordChar x = true :=
      forall_mem_head?_cons (hword c List.mem_cons_self) _
    rw [readValue_of_word hhead, reads_readWord h rest hrest]
  | @string cs s h =>
    intro rest hrest
    -- a string is read whole, so the bound does not matter but for being positive
    have hread := readString_append h rest
    cases h with
    | mk h =>
      obtain ⟨depth, rfl⟩ := Nat.exists_eq_add_of_le' (m := 1) (Nat.le_trans (by simp) hdepth)
      rw [List.cons_append] at hread ⊢
      rw [readValue, hread]
      rfl
  | @array items hitems cs listed ih =>
    intro rest hrest
    obtain ⟨depth, rfl⟩ := Nat.exists_eq_add_of_le' (m := 1) (Nat.le_trans (by simp) hdepth)
    have hshorter : ∀ i ∈ items, i.1.length ≤ depth := fun i hi =>
      Nat.le_trans (listed.length_le i.1 (List.mem_map_of_mem hi)) (Nat.le_of_succ_le_succ hdepth)
    have hread := readListed_append closes_bracket (fun i hi => ih i hi (hshorter i hi))
      (fun i hi => (hitems i hi).starts) listed rest
    rw [List.cons_append, readValue, hread]
    rfl
  | @object members hkeys hmembers cs listed ih =>
    intro rest hrest
    obtain ⟨depth, rfl⟩ := Nat.exists_eq_add_of_le' (m := 1) (Nat.le_trans (by simp) hdepth)
    have hshorter : ∀ m ∈ members, m.chars.length ≤ depth := by
      intro m hm
      have htext : m.chars.length ≤ m.text.length := by
        simp [Member.text]
        omega
      have hlisted := listed.length_le m.text (List.mem_map_of_mem hm)
      exact Nat.le_trans (Nat.le_trans htext hlisted) (Nat.le_of_succ_le_succ hdepth)
    -- a member is an item that stands for an entry
    let items := members.map fun m => (m.text, m.entry)
    have htexts : items.map (·.1) = members.map Member.text := List.map_map
    have hentries : items.map (·.2) = members.map Member.entry := List.map_map
    have hreads : ∀ i ∈ items, Reads (readMember (readValue depth)) i.1 i.2 :=
      List.forall_mem_map.mpr fun m hm =>
        reads_readMember (hkeys m hm) (ih m hm (hshorter m hm)) (hmembers m hm).starts
    have hstarts : ∀ i ∈ items, Starts '\x7d' i.1 :=
      List.forall_mem_map.mpr fun m hm => (hkeys m hm).starts
    have hread := readListed_append closes_brace hreads hstarts (htexts ▸ listed) rest
    rw [List.cons_append, readValue, hread, hentries]
    rfl

/-- Choices of one member for each item. -/
theorem exists_members {P : Member → Prop} {items : List (List Char × (Value × Value))}
    (h : ∀ i ∈ items, ∃ m, P m ∧ i = (m.text, m.entry)) :
    ∃ members : List Member, (∀ m ∈ members, P m) ∧
      items = members.map fun m => (m.text, m.entry) := by
  induction items with
  | nil => exact ⟨[], List.forall_mem_nil _, rfl⟩
  | cons i items ih =>
    obtain ⟨⟨m, hm, rfl⟩, hitems⟩ := List.forall_mem_cons.mp h
    obtain ⟨members, hmembers, rfl⟩ := ih hitems
    exact ⟨m :: members, List.forall_mem_cons.mpr ⟨hm, hmembers⟩, rfl⟩

/-- **Nothing but values is read.** -/
theorem follows_readValue (depth : Nat) : Follows (readValue depth) Denotes := by
  -- by induction on the bound, as what was read is not known yet
  induction depth with
  | zero => exact fun h => nomatch h
  | succ depth ih =>
    intro cs v rest hread
    rw [readValue.eq_def] at hread
    dsimp only at hread
    -- the first character decides: a quote, a bracket of either kind or a word
    split at hread
    · obtain ⟨⟨s, _⟩, hs, heq⟩ := Option.map_eq_some_iff.mp hread
      cases heq
      obtain ⟨front, hfront, hcs⟩ := follows_readString hs
      exact ⟨front, .string hfront, hcs⟩
    · obtain ⟨⟨xs, _⟩, hxs, heq⟩ := Option.map_eq_some_iff.mp hread
      cases heq
      obtain ⟨front, ⟨items, hitems, hlisted, rfl⟩, rfl⟩ := follows_readListed ih hxs
      exact ⟨'[' :: front, .array hitems hlisted, rfl⟩
    · obtain ⟨⟨es, _⟩, hes, heq⟩ := Option.map_eq_some_iff.mp hread
      cases heq
      obtain ⟨front, ⟨items, hitems, hlisted, rfl⟩, rfl⟩ :=
        follows_readListed (follows_readMember ih) hes
      obtain ⟨members, hmembers, rfl⟩ := exists_members hitems
      rw [List.map_map] at hlisted
      refine ⟨'\x7b' :: front, ?_, rfl⟩
      rw [List.map_map]
      exact .object (fun m hm => (hmembers m hm).1) (fun m hm => (hmembers m hm).2) hlisted
    · obtain ⟨front, hfront, hcs⟩ := follows_readWord hread
      exact ⟨front, .word hfront, hcs⟩

/-! ### Texts -/

/-- **A JSON text is read as what it stands for**, and nothing else is read. So a text stands for
one value at most. -/
theorem read?_eq_some_iff {s : String} {v : Value} : read? s = some v ↔ IsDocument s v := by
  constructor
  · intro h
    obtain ⟨⟨w, rest⟩, hread, h⟩ := Option.bind_eq_some_iff.mp h
    dsimp only at h
    split at h
    · rename_i hend
      cases h
      -- what was read is in the grammar, and only blanks stand around it
      obtain ⟨front, hfront, hskip⟩ := follows_readValue _ hread
      obtain ⟨gap, hgap, hs⟩ := exists_gap s.toList
      obtain ⟨gap', hgap', hrest⟩ := exists_gap rest
      rw [hend, List.append_nil] at hrest
      subst hrest
      exact .mk hfront hgap hgap' (by rw [← hskip, ← hs])
    · cases h
  · rintro ⟨hv, hgap, hgap', hs⟩
    rename_i gap cs gap'
    have hends : EndsWord gap' := List.append_nil gap' ▸ endsWord_append hgap' endsWord_nil
    -- the reader goes no deeper than the text is long, and no value needs more
    have hdepth : cs.length ≤ s.toList.length := by
      rw [hs]
      simp
      omega
    have hend : skip gap' = [] := List.append_nil gap' ▸ skip_append hgap' noGap_nil
    have hread := reads_readValue hv hdepth gap' hends
    rw [read?, hs, skip_append hgap (hv.starts.noGap gap'), ← hs, hread, Option.bind_some]
    exact if_pos hend

/-- A text is JSON if it can be read. -/
theorem isJsonText_iff_isSome_read? {s : String} : IsJsonText s ↔ (read? s).isSome := by
  rw [Option.isSome_iff_exists]
  exact exists_congr fun v => read?_eq_some_iff.symm

end BoundSql.Json
