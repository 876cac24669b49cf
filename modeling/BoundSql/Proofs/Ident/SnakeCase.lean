import BoundSql.Proofs.Ident
import BoundSql.Proofs.Text.Pieces

/-!
# Snake case

A text is in snake case if it is made of words, each a small letter or digit and more of these, with
one underscore between each and the next. `Ident.snakeCase` takes every name to such a text and
leaves alone those that are one. All it does to the letters and digits of a name is to make them
small: what it adds is underscores, and what it drops are other characters.

* `Ident.isSnake_snakeChars` — what comes out is in snake case;
* `Ident.letters_snakeChars` — its letters and digits are those of the name;
* `Ident.snakeCase_eq_empty_iff` — it is empty only where the name has none;
* `Ident.snakeChars_intercalate` — words between any separators come out as the same words;
* `Ident.snakeCase_normalizes` — what a column name is, for any name at all.
-/

namespace BoundSql

/-- What a quote does not occur in is not changed by doubling it. -/
theorem Text.double_of_not_mem {q : Char} {cs : List Char} (h : q ∉ cs) : double q cs = cs := by
  induction cs with
  | nil => rfl
  | cons c cs ih =>
    have hc : c ≠ q := fun hc => h (hc ▸ List.mem_cons_self)
    have hcs : q ∉ cs := fun hcs => h (List.mem_cons_of_mem c hcs)
    rw [double, if_neg hc, ih hcs]

namespace Ident

open Text

/-! ### Words -/

/-- A text in snake case: words with one underscore between each and the next, or no word at all. -/
def IsSnake (cs : List Char) : Prop :=
  ∃ ws : List (List Char), (∀ w ∈ ws, IsWord w) ∧ cs = ['_'].intercalate ws

theorem IsWord.isAlphanum {w : List Char} (h : IsWord w) : ∀ c ∈ w, c.isAlphanum = true :=
  fun c hc => isAlphanum_of_isSmall (h.2 c hc)

theorem IsWord.map_toLower {w : List Char} (h : IsWord w) : w.map Char.toLower = w :=
  (List.map_congr_left fun c hc => toLower_of_isSmall (h.2 c hc)).trans (List.map_id w)

/-- Words hold none of the characters that part words. -/
theorem IsWord.not_separated {w : List Char} (h : IsWord w) :
    w ≠ [] ∧ ∀ c ∈ w, (!c.isAlphanum) = false :=
  ⟨h.1, fun c hc => by rw [h.isAlphanum c hc, Bool.not_true]⟩

/-- **What comes out** is in snake case. -/
theorem isSnake_snakeChars (name : List Char) : IsSnake (snakeChars name) :=
  ⟨_, fun _ => isWord_of_mem_words, rfl⟩

/-! ### Letters and digits -/

/-- The spaces that part words leave the letters and digits as they are. -/
theorem filter_spaced (cs : List Char) :
    (spaced cs).filter Char.isAlphanum = cs.filter Char.isAlphanum := by
  induction cs with
  | nil => rfl
  | cons a cs ih =>
    cases cs with
    | nil => rfl
    | cons b rest =>
      -- a space is no letter or digit
      have hspace : ∀ behind,
          (' ' :: behind).filter Char.isAlphanum = behind.filter Char.isAlphanum :=
        fun _ => List.filter_cons_of_neg (by decide)
      rw [spaced]
      split
      · rw [List.filter_cons, hspace, ih, ← List.filter_cons]
      · rw [List.filter_cons, ih, ← List.filter_cons]

/-- Without its underscores a text in snake case is its words, one behind the other. -/
theorem filter_intercalate {ws : List (List Char)} (h : ∀ w ∈ ws, IsWord w) :
    (['_'].intercalate ws).filter (· != '_') = ws.flatten := by
  have hws : ∀ w ∈ ws, w ≠ [] ∧ ∀ c ∈ w, (c == '_') = false := by
    intro w hw
    refine ⟨(h w hw).1, fun c hc => beq_eq_false_iff_ne.mpr ?_⟩
    rintro rfl
    cases (h w hw).2 '_' hc
  have hpieces : pieces (· == '_') (['_'].intercalate ws) = ws := pieces_intercalate rfl hws
  have hflatten := flatten_pieces (· == '_') (['_'].intercalate ws)
  rw [hpieces] at hflatten
  exact hflatten.symm

/-- The words of a name, one behind the other, are its letters and digits. -/
theorem flatten_words (name : List Char) : (words name).flatten = name.filter Char.isAlphanum := by
  have hwords : (words name).flatten = (spaced name).filter fun c => !!c.isAlphanum :=
    flatten_pieces _ (spaced name)
  simp only [Bool.not_not] at hwords
  rw [hwords, filter_spaced]

/-- **The letters and digits** of a name are kept in order and made small. -/
theorem letters_snakeChars (name : List Char) :
    (snakeChars name).filter (· != '_') = (name.filter Char.isAlphanum).map Char.toLower := by
  rw [snakeChars, filter_intercalate fun _ => isWord_of_mem_words, ← List.map_flatten,
    flatten_words]

/-- **A name of which nothing is left** is one without letters and digits. -/
theorem snakeCase_eq_empty_iff {name : String} :
    snakeCase name = "" ↔ ∀ c ∈ name.toList, c.isAlphanum = false := by
  have hchars : snakeCase name = "" ↔ snakeChars name.toList = [] := by
    rw [← String.toList_inj, snakeCase, String.toList_ofList]
    rfl
  have hfilter : (∀ c ∈ name.toList, c.isAlphanum = false) ↔
      name.toList.filter Char.isAlphanum = [] := by
    simp [List.filter_eq_nil_iff]
  rw [hchars, hfilter]
  constructor
  · intro h
    have hletters := letters_snakeChars name.toList
    rw [h] at hletters
    exact List.map_eq_nil_iff.mp hletters.symm
  · intro h
    -- words are not empty, so without letters there is none
    have hflatten : (words name.toList).flatten = [] := (flatten_words _).trans h
    have hwords : words name.toList = [] := by
      refine List.eq_nil_iff_forall_not_mem.mpr fun w hw => ?_
      have hempty : w = [] := List.flatten_eq_nil_iff.mp hflatten w hw
      have hne : (!w.isEmpty) = true := (List.mem_filter.mp hw).2
      rw [hempty] at hne
      cases hne
    rw [snakeChars, hwords]
    rfl

/-! ### Texts in snake case -/

/-- Without capitals there is nothing to part. -/
theorem spaced_of_not_isUpper {cs : List Char} (h : ∀ c ∈ cs, c.isUpper = false) :
    spaced cs = cs := by
  induction cs with
  | nil => rfl
  | cons a cs ih =>
    cases cs with
    | nil => rfl
    | cons b rest =>
      obtain ⟨-, hrest⟩ := List.forall_mem_cons.mp h
      have hb : b.isUpper = false := hrest b List.mem_cons_self
      -- a space goes in front of a capital only
      have hbreak : breaksBetween a b rest = false := by rw [breaksBetween, hb, Bool.false_and]
      rw [spaced, hbreak, if_neg Bool.false_ne_true, ih hrest]

/-- **Words between separators**, whichever these are, come out as the same words. -/
theorem snakeChars_intercalate {sep : Char} (hsep : sep.isAlphanum = false)
    {ws : List (List Char)} (h : ∀ w ∈ ws, IsWord w) :
    snakeChars ([sep].intercalate ws) = ['_'].intercalate ws := by
  -- neither the words nor what parts them has capitals, so no space is put in
  have hupper : ∀ c ∈ [sep].intercalate ws, c.isUpper = false := by
    intro c hc
    rcases mem_intercalate hc with rfl | ⟨w, hw, hc⟩
    · rw [isAlphanum_eq, Bool.or_eq_false_iff] at hsep
      exact hsep.1
    · exact not_isUpper_of_isSmall ((h w hw).2 c hc)
  have hwords : words ([sep].intercalate ws) = ws := by
    rw [words, spaced_of_not_isUpper hupper]
    exact pieces_intercalate (by rw [hsep, Bool.not_false]) fun w hw => (h w hw).not_separated
  have hlower : ws.map (·.map Char.toLower) = ws :=
    (List.map_congr_left fun w hw => (h w hw).map_toLower).trans (List.map_id ws)
  rw [snakeChars, hwords, hlower]

theorem snakeChars_of_isSnake {cs : List Char} (h : IsSnake cs) : snakeChars cs = cs := by
  obtain ⟨ws, hws, rfl⟩ := h
  exact snakeChars_intercalate rfl hws

/-- The texts in snake case are those that are left alone. -/
theorem snakeChars_eq_self_iff {cs : List Char} : snakeChars cs = cs ↔ IsSnake cs :=
  ⟨fun h => h ▸ isSnake_snakeChars cs, snakeChars_of_isSnake⟩

instance : DecidablePred IsSnake := fun _ => decidable_of_iff _ snakeChars_eq_self_iff

/-! ### Quoting -/

/-- Whether a character has no place in an identifier that stands without quotes. -/
def needsQuotes (c : Char) : Bool := c != '_' && !isSmall c

theorem not_needsQuotes_of_isSnake {cs : List Char} (h : IsSnake cs) :
    ∀ c ∈ cs, needsQuotes c = false := by
  obtain ⟨ws, hws, rfl⟩ := h
  intro c hc
  rcases mem_intercalate hc with rfl | ⟨w, hw, hc⟩
  · rfl
  · rw [needsQuotes, (hws w hw).2 c hc, Bool.not_true, Bool.and_false]

/-- Where no character needs quotes, quoting doubles nothing. -/
theorem quote_of_not_needsQuotes {name : String} (h : ∀ c ∈ name.toList, needsQuotes c = false) :
    quote name = "\"" ++ name ++ "\"" := by
  have hquote : '"' ∉ name.toList := by
    intro hmem
    cases h '"' hmem
  apply String.toList_inj.mp
  rw [quote, toList_quoteWith, double_of_not_mem hquote, String.toList_append, String.toList_append]
  rfl

/-! ### Column names -/

/-- **What a column name is**, for any name that it stands for:

* a text in snake case, which may be empty;
* its letters and digits are the ASCII letters and digits of the name, in order and made small;
* it is the name itself exactly if that is in snake case; so it stands for itself;
* none of its characters needs quotes, and quoting it doubles none. -/
theorem snakeCase_normalizes (name : String) :
    IsSnake (snakeCase name).toList ∧
    (snakeCase name).toList.filter (· != '_') =
      (name.toList.filter Char.isAlphanum).map Char.toLower ∧
    (snakeCase name = name ↔ IsSnake name.toList) ∧
    snakeCase (snakeCase name) = snakeCase name ∧
    (∀ c ∈ (snakeCase name).toList, needsQuotes c = false) ∧
    quote (snakeCase name) = "\"" ++ snakeCase name ++ "\"" := by
  have hchars : (snakeCase name).toList = snakeChars name.toList := String.toList_ofList
  have hsnake : IsSnake (snakeCase name).toList := hchars ▸ isSnake_snakeChars name.toList
  -- whatever is in snake case stands for itself, so the result does
  have hself : ∀ s : String, snakeCase s = s ↔ IsSnake s.toList := by
    intro s
    rw [← snakeChars_eq_self_iff, ← String.toList_inj, snakeCase, String.toList_ofList]
  have hplain := not_needsQuotes_of_isSnake hsnake
  refine ⟨hsnake, ?_, hself name, (hself _).mpr hsnake, hplain, quote_of_not_needsQuotes hplain⟩
  rw [hchars, letters_snakeChars]

example : IsSnake "already_snake".toList ∧ ¬ IsSnake "twice__parted".toList ∧
    ¬ IsSnake "ownerName".toList := by decide

end Ident

end BoundSql
