import BoundSql.Insert.Stored
import Mathlib.Data.List.DropRight

/-!
# Array literals read back

A database reads an array text character by character. An element in quotes is taken as it stands,
with a backslash in front of a character that is not meant as syntax. Of an element without quotes
the blanks at both ends do not count, something has to be left of it, and the letters `NULL` in any
case stand for no value at all.

An array literal puts quotes around an element for its syntax characters and for plain spaces, but
not for a keyword or for any other blank. So a list of texts comes back as it was exactly if none of
its texts relies on quotes for one of those reasons.

* `readFrom_element` — what is read of one element, in front of anything that may end it;
* `read_ofItems` — a literal is read text by text, apart from one text of nothing but blanks;
* `read_ofItems_eq_some_iff` — when a list of texts survives.

What counts as a blank is left open: every result holds for any set of characters, since syntax
characters are recognised first.
-/

namespace BoundSql.ArrayLiteral

/-! ### The reader -/

/-- Where a reader stands in an array text. -/
inductive Place where
  /-- In front of the opening brace. -/
  | outside
  /-- In front of an element, which is the first one or follows a comma. -/
  | start (first : Bool)
  /-- In an element without quotes: `kept` belongs to it, `blanks` only if more of it follows.
  It is `plain` as long as no character of it was escaped. -/
  | bare (kept blanks : List Char) (plain : Bool)
  /-- Behind a backslash in an element without quotes. -/
  | bareEscape (kept : List Char)
  /-- Between quotes. -/
  | quoted (kept : List Char)
  /-- Behind a backslash between quotes. -/
  | quotedEscape (kept : List Char)
  /-- Behind an element in quotes. -/
  | behind (kept : List Char)
  /-- Behind the closing brace. -/
  | closed

/-- Whether a character ends an element. -/
def isEnd (c : Char) : Bool := c == ',' || c == '\x7d'

/-- The place behind the character that ends an element. -/
def Place.after (c : Char) : Place := if c = ',' then .start false else .closed

/-- Whether an element spells the keyword for no value, in any case of its letters. -/
def isNull (cs : List Char) : Bool := cs.map Char.toLower == ['n', 'u', 'l', 'l']

/-- The element that stands for itself without quotes, or no value for the keyword. -/
def unquoted (plain : Bool) (cs : List Char) : Option String :=
  if plain && isNull cs then none else some (String.ofList cs)

/-- **One character of an array text**: the element it ends, if any, and the next place. There is no
next place where the text is malformed; that includes arrays inside the array. -/
def Place.step (blank : Char → Bool) (c : Char) :
    Place → Option (List (Option String) × Place)
  | outside =>
    if c = '\x7b' then some ([], start true) else if blank c then some ([], outside) else none
  | start first =>
    if c = '\x7d' then if first then some ([], closed) else none
    else if c = ',' || c = '\x7b' then none
    else if c = '"' then some ([], quoted [])
    else if c = '\\' then some ([], bareEscape [])
    else if blank c then some ([], start first)
    else some ([], bare [c] [] true)
  | bare kept blanks plain =>
    if isEnd c then some ([unquoted plain kept], after c)
    else if c = '"' || c = '\x7b' then none
    else if c = '\\' then some ([], bareEscape (kept ++ blanks))
    else if blank c then some ([], bare kept (blanks ++ [c]) plain)
    else some ([], bare (kept ++ blanks ++ [c]) [] plain)
  | bareEscape kept => some ([], bare (kept ++ [c]) [] false)
  | quoted kept =>
    if c = '"' then some ([], behind kept)
    else if c = '\\' then some ([], quotedEscape kept)
    else some ([], quoted (kept ++ [c]))
  | quotedEscape kept => some ([], quoted (kept ++ [c]))
  | behind kept =>
    if isEnd c then some ([some (String.ofList kept)], after c)
    else if blank c then some ([], behind kept)
    else none
  | closed => if blank c then some ([], closed) else none

/-- The elements of an array text from a place on, each a text or no value; `none` where the text is
malformed or not at its end. -/
def readFrom (blank : Char → Bool) : Place → List Char → Option (List (Option String))
  | .closed, [] => some []
  | _, [] => none
  | place, c :: cs =>
    match place.step blank c with
    | none => none
    | some (elements, next) => (readFrom blank next cs).map (elements ++ ·)

/-- **The elements of an array text**, read by the input rules of arrays. -/
def read (blank : Char → Bool) (s : String) : Option (List (Option String)) :=
  readFrom blank .outside s.toList

section Reader

variable {blank : Char → Bool} {place next : Place} {elements : List (Option String)} {c : Char}
  {cs rest : List Char}

theorem readFrom_cons (h : place.step blank c = some (elements, next)) :
    readFrom blank place (c :: cs) = (readFrom blank next cs).map (elements ++ ·) := by
  rw [readFrom, h]

/-- A character that ends no element moves the reader on. -/
theorem readFrom_cons_nil (h : place.step blank c = some ([], next)) :
    readFrom blank place (c :: cs) = readFrom blank next cs := by
  rw [readFrom_cons h]
  exact Option.map_id' ..

end Reader

/-! ### One element -/

/-- Whether an element is written in quotes. -/
def isQuoted (cs : List Char) : Bool := cs.isEmpty || cs.any isSpecial

/-- What a reader makes of an element as it is written; `none` if nothing is left to read. -/
def reading (blank : Char → Bool) (cs : List Char) : Option (Option String) :=
  if isQuoted cs then some (some (String.ofList cs))
  else if Text.trim blank cs = [] then none
  else some (unquoted true (Text.trim blank cs))

section Element

variable {blank : Char → Bool} {first plain : Bool} {c : Char}
  {cs kept blanks rest : List Char}

theorem elementChars_of_isQuoted (h : isQuoted cs = true) :
    elementChars cs = '"' :: (cs.flatMap escapeChar ++ ['"']) := if_pos h

theorem elementChars_of_not_isQuoted (h : isQuoted cs = false) : elementChars cs = cs :=
  if_neg (ne_true_of_eq_false h)

/-- An element without quotes has none of the characters that need them. -/
theorem not_isSpecial_of_not_isQuoted (h : isQuoted cs = false) :
    ∀ x ∈ cs, isSpecial x = false := by
  have hany : cs.any isSpecial = false := (Bool.or_eq_false_iff.mp h).2
  intro x hx
  exact eq_false_of_ne_true (List.any_eq_false.mp hany x hx)

/-- Escaping is undone between quotes. -/
theorem readFrom_quoted :
    readFrom blank (.quoted kept) (cs.flatMap escapeChar ++ '"' :: rest) =
      readFrom blank (.behind (kept ++ cs)) rest := by
  induction cs generalizing kept with
  | nil =>
    rw [List.append_nil]
    exact readFrom_cons_nil rfl
  | cons c cs ih =>
    have hkept : kept ++ c :: cs = kept ++ [c] ++ cs := List.append_cons ..
    rw [hkept, ← ih, List.flatMap_cons, List.append_assoc]
    -- a syntax character is read behind its backslash, any other as it stands
    by_cases hsyntax : c = '\\' ∨ c = '"'
    · have hescape : escapeChar c = ['\\', c] := by simp [escapeChar, hsyntax]
      rw [hescape]
      calc readFrom blank (.quoted kept) ('\\' :: c :: (cs.flatMap escapeChar ++ '"' :: rest))
          = readFrom blank (.quotedEscape kept) (c :: (cs.flatMap escapeChar ++ '"' :: rest)) :=
            readFrom_cons_nil rfl
        _ = _ := readFrom_cons_nil rfl
    · have hescape : escapeChar c = [c] := by simp [escapeChar, hsyntax]
      rw [not_or] at hsyntax
      rw [hescape]
      apply readFrom_cons_nil
      rw [Place.step, if_neg hsyntax.2, if_neg hsyntax.1]

/-- A character without special meaning is none of the syntax characters. -/
theorem ne_of_not_isSpecial (h : isSpecial c = false) :
    c ≠ ',' ∧ c ≠ '\x7b' ∧ c ≠ '\x7d' ∧ c ≠ '"' ∧ c ≠ '\\' := by
  refine ⟨?_, ?_, ?_, ?_, ?_⟩ <;> rintro rfl <;> exact absurd h (by decide)

theorem rdropWhile_append_cons (xs : List Char) {ys : List Char} (h : blank c = false) :
    (xs ++ c :: ys).rdropWhile blank = xs ++ c :: ys.rdropWhile blank := by
  induction ys using List.reverseRecOn with
  | nil => exact List.rdropWhile_concat_neg blank xs c (ne_true_of_eq_false h)
  | append_singleton ys y ih =>
    have hsnoc : xs ++ c :: (ys ++ [y]) = xs ++ c :: ys ++ [y] := by
      rw [List.append_assoc, List.cons_append]
    rw [hsnoc]
    by_cases hy : blank y = true
    · rw [List.rdropWhile_concat_pos _ _ _ hy, List.rdropWhile_concat_pos _ _ _ hy, ih]
    · rw [List.rdropWhile_concat_neg _ _ _ hy, List.rdropWhile_concat_neg _ _ _ hy, hsnoc]

/-- An element without quotes ends without the blanks at its end. -/
theorem readFrom_bare (hplain : ∀ x ∈ cs, isSpecial x = false)
    (hblanks : ∀ x ∈ blanks, blank x = true) (hend : isEnd c = true) :
    readFrom blank (.bare kept blanks plain) (cs ++ c :: rest) =
      (readFrom blank (.after c) rest).map
        (unquoted plain (kept ++ (blanks ++ cs).rdropWhile blank) :: ·) := by
  -- a blank joins those held back, any other character settles them
  induction cs generalizing kept blanks with
  | nil =>
    have hdrop : blanks.rdropWhile blank = [] := (List.rdropWhile_eq_nil_iff ..).mpr hblanks
    have hstep : (Place.bare kept blanks plain).step blank c =
        some ([unquoted plain kept], .after c) := if_pos hend
    rw [List.append_nil, hdrop, List.append_nil]
    exact readFrom_cons hstep
  | cons x cs ih =>
    obtain ⟨hx, hcs⟩ := List.forall_mem_cons.mp hplain
    obtain ⟨hcomma, hopen, hclose, hquote, hslash⟩ := ne_of_not_isSpecial hx
    have hstep : (Place.bare kept blanks plain).step blank x =
        if blank x then some ([], .bare kept (blanks ++ [x]) plain)
        else some ([], .bare (kept ++ blanks ++ [x]) [] plain) := by
      simp [Place.step, isEnd, hcomma, hopen, hclose, hquote, hslash]
    -- blanks count only if something comes behind them
    by_cases hblank : blank x = true
    · have hjoined : ∀ y ∈ blanks ++ [x], blank y = true := by
        simpa [or_imp, forall_and, hblank] using hblanks
      rw [if_pos hblank] at hstep
      rw [List.cons_append, readFrom_cons_nil hstep, ih hcs hjoined, ← List.append_cons]
    · rw [if_neg hblank] at hstep
      rw [List.cons_append, readFrom_cons_nil hstep, ih hcs (fun _ h => absurd h List.not_mem_nil),
        rdropWhile_append_cons _ (eq_false_of_ne_true hblank)]
      simp

/-- In front of an element without quotes, blanks do not count. -/
theorem readFrom_start (hplain : ∀ x ∈ cs, isSpecial x = false) (hend : isEnd c = true) :
    readFrom blank (.start first) (cs ++ c :: rest) =
      if Text.trim blank cs = [] then readFrom blank (.start first) (c :: rest)
      else (readFrom blank (.after c) rest).map (unquoted true (Text.trim blank cs) :: ·) := by
  induction cs with
  | nil => rfl
  | cons x cs ih =>
    obtain ⟨hx, hcs⟩ := List.forall_mem_cons.mp hplain
    obtain ⟨hcomma, hopen, hclose, hquote, hslash⟩ := ne_of_not_isSpecial hx
    have hstep : (Place.start first).step blank x =
        if blank x then some ([], .start first) else some ([], .bare [x] [] true) := by
      simp [Place.step, hcomma, hopen, hclose, hquote, hslash]
    -- a blank in front is passed over, any other character begins the element
    by_cases hblank : blank x = true
    · have htrim : Text.trim blank (x :: cs) = Text.trim blank cs := by
        rw [Text.trim, List.dropWhile_cons_of_pos hblank, Text.trim]
      rw [if_pos hblank] at hstep
      rw [List.cons_append, readFrom_cons_nil hstep, ih hcs, htrim]
    · have htrim : Text.trim blank (x :: cs) = x :: cs.rdropWhile blank := by
        calc Text.trim blank (x :: cs)
            = (x :: cs).rdropWhile blank := by
              rw [Text.trim, List.dropWhile_cons_of_neg hblank, List.rdropWhile]
          _ = x :: cs.rdropWhile blank :=
              rdropWhile_append_cons [] (eq_false_of_ne_true hblank)
      rw [if_neg hblank] at hstep
      rw [List.cons_append, readFrom_cons_nil hstep, htrim, if_neg (List.cons_ne_nil _ _),
        readFrom_bare hcs (fun _ h => absurd h List.not_mem_nil) hend]
      rfl

/-- **One element is read as `reading` says**, in front of any character that ends it; where nothing
is left of it, the reader has not moved on. -/
theorem readFrom_element (hend : isEnd c = true) :
    readFrom blank (.start first) (elementChars cs ++ c :: rest) =
      match reading blank cs with
      | some element => (readFrom blank (.after c) rest).map (element :: ·)
      | none => readFrom blank (.start first) (c :: rest) := by
  by_cases hquoted : isQuoted cs = true
  · -- behind the closing quote the element is complete, blanks and all
    have hbehind : (Place.behind cs).step blank c = some ([some (String.ofList cs)], .after c) :=
      if_pos hend
    rw [elementChars_of_isQuoted hquoted, reading, if_pos hquoted]
    calc readFrom blank (.start first) ('"' :: (cs.flatMap escapeChar ++ ['"']) ++ c :: rest)
        = readFrom blank (.quoted []) (cs.flatMap escapeChar ++ '"' :: c :: rest) := by
          rw [List.cons_append, List.append_assoc]
          exact readFrom_cons_nil rfl
      _ = readFrom blank (.behind cs) (c :: rest) := readFrom_quoted
      _ = _ := readFrom_cons hbehind
  · have hbare := eq_false_of_ne_true hquoted
    rw [elementChars_of_not_isQuoted hbare, reading, if_neg hquoted,
      readFrom_start (not_isSpecial_of_not_isQuoted hbare) hend]
    split <;> rfl

end Element

/-! ### The whole literal -/

section Literal

variable {blank : Char → Bool} {first : Bool}

/-- **The elements are read one by one**, up to the closing brace. Only behind the opening brace may
nothing be left of the last one. -/
theorem readFrom_elements (t : List Char) (ts : List (List Char)) :
    readFrom blank (.start first)
        ([','].intercalate ((t :: ts).map elementChars) ++ ['\x7d']) =
      if first = true ∧ ts = [] ∧ reading blank t = none then some []
      else (t :: ts).mapM (reading blank) := by
  induction ts generalizing t first with
  | nil =>
    have hone : [','].intercalate ([t].map elementChars) = elementChars t := by
      simp [List.intercalate]
    rw [hone, readFrom_element (by rfl)]
    cases hreading : reading blank t with
    | none =>
      -- the reader is still in front of an element, where only an empty array may be closed
      have hclose : readFrom blank (.start first) ['\x7d'] = if first then some [] else none := by
        cases first <;> rfl
      simp [hreading, hclose]
    | some element =>
      have hclosed : readFrom blank (.after '\x7d') [] = some [] := rfl
      simp [hreading, hclosed]
  | cons u us ih =>
    have hmore : [','].intercalate ((t :: u :: us).map elementChars) ++ ['\x7d'] =
        elementChars t ++ ',' :: ([','].intercalate ((u :: us).map elementChars) ++ ['\x7d']) := by
      simp [List.intercalate]
    rw [hmore, readFrom_element (by rfl)]
    cases hreading : reading blank t with
    | none =>
      -- nothing may be left out in front of a comma
      have hstop : ∀ rest, readFrom blank (.start first) (',' :: rest) = none := fun _ => rfl
      simp [hreading, hstop]
    | some element =>
      have hnext : readFrom blank (.after ',')
          ([','].intercalate ((u :: us).map elementChars) ++ ['\x7d']) =
            (u :: us).mapM (reading blank) := by
        rw [Place.after, if_pos rfl, ih u]
        simp
      have hread : (t :: u :: us).mapM (reading blank) =
          ((u :: us).mapM (reading blank)).map (element :: ·) := by
        rw [List.mapM_cons, hreading]
        cases (u :: us).mapM (reading blank) <;> rfl
      rw [if_neg (fun h => List.cons_ne_nil _ _ h.2.1), hread, ← hnext]

/-- Texts are themselves as items. -/
theorem ofItems_map_text (texts : List String) :
    ofItems (texts.map Value.text) = ofTexts texts := by
  have hplain : (texts.map Value.text).map Value.plainText = texts := by
    rw [List.map_map]
    exact List.map_id' ..
  rw [ofItems, hplain]

/-- The text of an array literal, as characters. -/
theorem toList_ofItems (texts : List String) :
    (ofItems (texts.map Value.text)).toList =
      '\x7b' :: ([','].intercalate (texts.map fun t => elementChars t.toList) ++ ['\x7d']) := by
  have helements : (texts.map element).map String.toList =
      texts.map fun t => elementChars t.toList := by
    rw [List.map_map]
    exact List.map_congr_left fun t _ => String.toList_ofList
  rw [ofItems_map_text, ofTexts]
  simp only [String.toList_append, String.toList_intercalate, helements]
  rfl

/-- The texts a reader makes of the elements of a literal. -/
def readings (blank : Char → Bool) (texts : List String) : Option (List (Option String)) :=
  (texts.map String.toList).mapM (reading blank)

/-- **A literal is read text by text.** The exception is the literal of one text of which nothing is
left: it reads as no element at all. -/
theorem read_ofItems (blank : Char → Bool) (texts : List String) :
    read blank (ofItems (texts.map Value.text)) =
      if texts.length = 1 ∧ readings blank texts = none then some []
      else readings blank texts := by
  have hopen : read blank (ofItems (texts.map Value.text)) = readFrom blank (.start true)
      ([','].intercalate (texts.map fun t => elementChars t.toList) ++ ['\x7d']) := by
    rw [read, toList_ofItems]
    exact readFrom_cons_nil rfl
  rw [hopen]
  cases texts with
  | nil => rfl
  | cons t ts =>
    have hchars : ((t :: ts).map fun t => elementChars t.toList) =
        (t.toList :: ts.map String.toList).map elementChars := by
      simp
    rw [hchars, readFrom_elements]
    -- two elements have a comma between them, so an empty place is seen as one
    cases ts with
    | nil => cases hreading : reading blank t.toList <;> simp [readings, hreading]
    | cons u us => simp [readings]

/-- **Whether a text survives** as an element: it is written in quotes, or it is no keyword and has
no blank at either end. -/
def Survives (blank : Char → Bool) (cs : List Char) : Prop :=
  isQuoted cs = true ∨
    isNull cs = false ∧ (∀ c ∈ cs.head?, blank c = false) ∧ ∀ c ∈ cs.getLast?, blank c = false

instance (cs : List Char) : Decidable (Survives blank cs) :=
  decidable_of_iff ((isQuoted cs || !isNull cs && !cs.head?.any blank && !cs.getLast?.any blank) =
    true) (by simp [Survives, Option.any_eq_false, and_assoc])

/-- Nothing is trimmed exactly if there is no blank at either end. -/
theorem trim_eq_self_iff {cs : List Char} :
    Text.trim blank cs = cs ↔
      (∀ c ∈ cs.head?, blank c = false) ∧ ∀ c ∈ cs.getLast?, blank c = false := by
  have htrim : Text.trim blank cs = (cs.dropWhile blank).rdropWhile blank := rfl
  have hends : Text.trim blank cs = cs ↔
      cs.dropWhile blank = cs ∧ cs.rdropWhile blank = cs := by
    constructor
    · intro heq
      -- both ends together are no shorter than either of them
      have hfront : cs.dropWhile blank = cs := by
        apply (List.dropWhile_suffix blank).eq_of_length_le
        calc cs.length = (Text.trim blank cs).length := by rw [heq]
          _ ≤ (cs.dropWhile blank).length := (List.rdropWhile_prefix ..).length_le
      exact ⟨hfront, by rw [← hfront, ← htrim, heq, hfront]⟩
    · rintro ⟨hfront, hback⟩
      rw [htrim, hfront, hback]
  rw [hends]
  apply and_congr
  · rw [List.dropWhile_eq_self_iff]
    cases cs <;> simp
  · rw [List.rdropWhile_eq_self_iff]
    by_cases hne : cs = []
    · simp [hne]
    · simp [List.getLast?_eq_some_getLast hne, hne]

/-- An element is read as the text it was written for exactly if that text survives. -/
theorem reading_eq_self_iff (t : String) :
    reading blank t.toList = some (some t) ↔ Survives blank t.toList := by
  -- between quotes everything survives
  by_cases hquoted : isQuoted t.toList = true
  · simp [reading, Survives, hquoted]
  have hne : t.toList ≠ [] := by
    intro hnil
    rw [hnil] at hquoted
    exact hquoted rfl
  -- without quotes it takes a text that is not read as null and has no blanks at its ends
  have hself : ∀ cs, unquoted true cs = some t ↔ isNull cs = false ∧ cs = t.toList := by
    intro cs
    by_cases hnull : isNull cs = true
    · simp [unquoted, hnull]
    · have hletters : String.ofList cs = t ↔ cs = t.toList :=
        ⟨fun h => h ▸ String.toList_ofList.symm, fun h => h ▸ String.ofList_toList⟩
      simp [unquoted, hnull, hletters]
  rw [reading, if_neg hquoted, Survives, ← trim_eq_self_iff, or_iff_right hquoted]
  by_cases hnil : Text.trim blank t.toList = []
  · rw [if_pos hnil, hnil]
    exact iff_of_false (fun h => nomatch h) fun h => hne h.2.symm
  · rw [if_neg hnil, Option.some_inj, hself]
    exact and_congr_left fun heq => by rw [heq]

theorem readings_eq_some_iff (texts : List String) :
    readings blank texts = some (texts.map some) ↔
      ∀ t ∈ texts, reading blank t.toList = some (some t) := by
  induction texts with
  | nil => simp [readings]
  | cons t ts ih =>
    have hcons : readings blank (t :: ts) = some ((t :: ts).map some) ↔
        reading blank t.toList = some (some t) ∧ readings blank ts = some (ts.map some) := by
      cases hreading : reading blank t.toList <;> cases hrest : readings blank ts <;>
        simp_all [readings]
    rw [hcons, ih, List.forall_mem_cons]

/-- **When array elements survive.** The literal of a list of texts is well formed and gives that
list back, element by element, exactly if every text survives on its own. -/
theorem read_ofItems_eq_some_iff (blank : Char → Bool) (texts : List String) :
    read blank (ofItems (texts.map Value.text)) = some (texts.map some) ↔
      ∀ t ∈ texts, Survives blank t.toList := by
  have hsurvive : readings blank texts = some (texts.map some) ↔
      ∀ t ∈ texts, Survives blank t.toList := by
    rw [readings_eq_some_iff]
    exact forall₂_congr fun t _ => reading_eq_self_iff t
  rw [read_ofItems, ← hsurvive]
  split
  · next hblank =>
    -- no element is read, but one text was written
    have hlength : ¬ some [] = some (texts.map (some (α := String))) := by
      intro heq
      have := congrArg (Option.map List.length) heq
      simp [hblank.1] at this
    rw [hblank.2]
    exact iff_of_false hlength (by simp)
  · rfl

/-- Texts whose spaces, commas, quotes and backslashes are kept. -/
example : read Text.isWhiteSpace (ofItems [.text "a b", .text "q\"", .text "", .text "a\\,"]) =
    some [some "a b", some "q\"", some "", some "a\\,"] := by
  decide

end Literal

/-- A list whose texts all survive, though one of them has a tab in its middle. -/
theorem read_ofItems_eq_some_iff_of_words :
    read Text.isWhiteSpace (ofItems (["nullable", "a\tb", " null "].map Value.text)) =
      some (["nullable", "a\tb", " null "].map some) := by
  apply (read_ofItems_eq_some_iff Text.isWhiteSpace ["nullable", "a\tb", " null "]).mpr
  rw [List.forall_mem_cons, List.forall_mem_cons, List.forall_mem_singleton]
  exact ⟨by decide, by decide, by decide⟩

/-- **A word can be lost**: the text `null` comes back as no value. -/
theorem not_read_of_null :
    ofItems [.text "null"] = "\x7bnull\x7d" ∧
      read Text.isWhiteSpace (ofItems (["null"].map Value.text)) = some [none] ∧
      ¬ ∀ texts : List String, read Text.isWhiteSpace (ofItems (texts.map Value.text)) =
        some (texts.map some) := by
  have hnull : read Text.isWhiteSpace (ofItems (["null"].map Value.text)) = some [none] := by
    decide
  refine ⟨by decide, hnull, ?_⟩
  intro hall
  have hkept := hall ["null"]
  rw [hnull] at hkept
  exact absurd hkept (by decide)

end BoundSql.ArrayLiteral
