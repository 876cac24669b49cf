import BoundSql.Proofs.Ident.SnakeCase

/-!
# Spellings of a name

A name of several words is written in many ways: with a capital where a word begins, or with some
character between the words. If every word begins with a small letter and has more behind it, each
of these spellings stands for the same column, and the words can be told from the column.

What has to be seen is that capitals part words as well as separators do. Inside a word no character
but the first is a capital, so nothing is parted there; and what stands in front of a capital is the
end of a word, which is a small letter or digit, so something is parted there (`spaced_append`).
A word of one letter would not do: in `"XAxis"` the capitals are parted, in `"XY"` they are not.

* `Ident.words_append_flatten` — the words of a name in which each but the first has a capital;
* `Ident.snakeCase_write` — the column that every spelling stands for.
-/

namespace BoundSql.Ident

open Text

/-! ### Spellings -/

/-- A word that begins with a small letter and has more behind it. -/
def IsLongWord (w : List Char) : Prop := ∃ a tail, w = a :: tail ∧ a.isLower = true ∧ IsWord tail

/-- A word with a capital in front. -/
def capitalize : List Char → List Char
  | [] => []
  | a :: tail => a.toUpper :: tail

/-- The ways to write a name of several words. -/
inductive Spelling
  | camel
  | pascal
  | kebab
  | space
  | snake
deriving DecidableEq, Repr

/-- The words in a spelling. -/
def Spelling.write : Spelling → List (List Char) → List Char
  | .camel, [] => []
  | .camel, w :: ws => w ++ (ws.map capitalize).flatten
  | .pascal, ws => (ws.map capitalize).flatten
  | .kebab, ws => ['-'].intercalate ws
  | .space, ws => [' '].intercalate ws
  | .snake, ws => ['_'].intercalate ws

/-- What a word looks like when its first letter may have become a capital. -/
def IsBlock (w : List Char) : Prop := ∃ a tail, w = a :: tail ∧ a.isAlphanum = true ∧ IsWord tail

/-! ### Words with a capital in front -/

theorem capital_of_isLower {a : Char} (h : a.isLower = true) :
    a.toUpper.isUpper = true ∧ a.toUpper.toLower = a := by
  have hletters : ∀ n : Fin 26, (Char.ofNat (n + 97)).toUpper.isUpper = true ∧
      (Char.ofNat (n + 97)).toUpper.toLower = Char.ofNat (n + 97) := by
    decide
  have hrange : 97 ≤ a.toNat ∧ a.toNat ≤ 122 := isLower_iff.mp h
  have hletter : a = Char.ofNat ((⟨a.toNat - 97, by omega⟩ : Fin 26) + 97) := by
    rw [Nat.sub_add_cancel hrange.1, Char.ofNat_toNat]
  rw [hletter]
  exact hletters _

theorem IsLongWord.isWord {w : List Char} (h : IsLongWord w) : IsWord w := by
  obtain ⟨a, tail, rfl, ha, htail⟩ := h
  have hsmall : isSmall a = true := by rw [isSmall, ha, Bool.true_or]
  exact ⟨List.cons_ne_nil a tail, List.forall_mem_cons.mpr ⟨hsmall, htail.2⟩⟩

theorem IsLongWord.isBlock {w : List Char} (h : IsLongWord w) : IsBlock w := by
  obtain ⟨a, tail, rfl, ha, htail⟩ := h
  exact ⟨a, tail, rfl, isAlphanum_of_isSmall (by rw [isSmall, ha, Bool.true_or]), htail⟩

theorem IsLongWord.isBlock_capitalize {w : List Char} (h : IsLongWord w) :
    IsBlock (capitalize w) := by
  obtain ⟨a, tail, rfl, ha, htail⟩ := h
  refine ⟨a.toUpper, tail, rfl, ?_, htail⟩
  rw [isAlphanum_eq, (capital_of_isLower ha).1, Bool.true_or]

/-- A capital in front is lost when a word is made small. -/
theorem IsLongWord.map_toLower_capitalize {w : List Char} (h : IsLongWord w) :
    (capitalize w).map Char.toLower = w := by
  obtain ⟨a, tail, rfl, ha, htail⟩ := h
  rw [capitalize, List.map_cons, (capital_of_isLower ha).2, htail.map_toLower]

theorem IsBlock.not_separated {w : List Char} (h : IsBlock w) :
    w ≠ [] ∧ ∀ c ∈ w, (!c.isAlphanum) = false := by
  obtain ⟨a, tail, rfl, ha, htail⟩ := h
  refine ⟨List.cons_ne_nil a tail, List.forall_mem_cons.mpr ⟨?_, htail.not_separated.2⟩⟩
  rw [ha, Bool.not_true]

/-! ### Where words are parted -/

/-- A word is not parted from a character in front of it. -/
theorem spaced_cons_append {w : List Char} (hw : IsWord w) (a : Char) (behind : List Char) :
    spaced (a :: (w ++ behind)) = a :: spaced (w ++ behind) := by
  obtain ⟨b, rest, rfl⟩ := List.exists_cons_of_ne_nil hw.1
  have hb : b.isUpper = false := not_isUpper_of_isSmall (hw.2 b List.mem_cons_self)
  have hbreak : breaksBetween a b (rest ++ behind) = false := by
    rw [breaksBetween, hb, Bool.false_and]
  rw [List.cons_append, spaced, hbreak, if_neg Bool.false_ne_true]

/-- **A capital behind a word** is parted from it. -/
theorem spaced_append {w : List Char} (hw : IsWord w) {b : Char} (hb : b.isUpper = true)
    (rest : List Char) : spaced (w ++ b :: rest) = w ++ ' ' :: spaced (b :: rest) := by
  obtain ⟨hne, hsmall⟩ := hw
  induction w with
  | nil => exact absurd rfl hne
  | cons a w ih =>
    obtain ⟨ha, hrest⟩ := List.forall_mem_cons.mp hsmall
    -- the space goes behind the last letter of the word and nowhere within it
    by_cases hw : w = []
    · have hbreak : breaksBetween a b rest = true := by
        rw [breaksBetween, hb, ← isSmall, ha, Bool.true_or, Bool.true_and]
      rw [hw, List.singleton_append, spaced, if_pos hbreak, List.singleton_append]
    · rw [List.cons_append, spaced_cons_append ⟨hw, hrest⟩, ih hw hrest, List.cons_append]

theorem IsBlock.spaced_self {w : List Char} (h : IsBlock w) : spaced w = w := by
  obtain ⟨a, tail, rfl, -, htail⟩ := h
  have hparted : spaced (a :: (tail ++ [])) = a :: spaced (tail ++ []) :=
    spaced_cons_append htail a []
  rw [List.append_nil] at hparted
  rw [hparted, spaced_of_not_isUpper fun c hc => not_isUpper_of_isSmall (htail.2 c hc)]

theorem IsBlock.spaced_append {w : List Char} (h : IsBlock w) {b : Char} (hb : b.isUpper = true)
    (rest : List Char) : spaced (w ++ b :: rest) = w ++ ' ' :: spaced (b :: rest) := by
  obtain ⟨a, tail, rfl, -, htail⟩ := h
  rw [List.cons_append, spaced_cons_append htail, Ident.spaced_append htail hb, List.cons_append]

/-- **The words of a name in which each but the first has a capital** are found again. -/
theorem words_append_flatten {w : List Char} (hw : IsBlock w) {ws : List (List Char)}
    (hws : ∀ w ∈ ws, IsLongWord w) :
    words (w ++ (ws.map capitalize).flatten) = w :: ws.map capitalize := by
  induction ws generalizing w with
  | nil =>
    rw [List.map_nil, List.flatten_nil, List.append_nil, words, hw.spaced_self]
    exact pieces_of_none hw.not_separated.1 hw.not_separated.2
  | cons v ws ih =>
    obtain ⟨hv, hws⟩ := List.forall_mem_cons.mp hws
    -- the next word becomes the block in front
    have hbehind : words (capitalize v ++ (ws.map capitalize).flatten) =
        capitalize v :: ws.map capitalize := ih hv.isBlock_capitalize hws
    obtain ⟨a, tail, rfl, ha, -⟩ := hv
    -- its capital is where the space goes
    have hparted : spaced (w ++ (capitalize (a :: tail) ++ (ws.map capitalize).flatten)) =
        w ++ ' ' :: spaced (capitalize (a :: tail) ++ (ws.map capitalize).flatten) :=
      hw.spaced_append (capital_of_isLower ha).1 _
    have hfront : ∀ behind, pieces (fun c => !c.isAlphanum) (w ++ ' ' :: behind) =
        w :: pieces (fun c => !c.isAlphanum) behind := by
      intro behind
      rw [pieces_append_cons rfl, pieces_of_none hw.not_separated.1 hw.not_separated.2,
        List.singleton_append]
    rw [List.map_cons, List.flatten_cons, words, hparted]
    exact (hfront _).trans (congrArg (w :: ·) hbehind)

/-! ### Columns -/

/-- A name in camel case stands for its words, and so does one whose first word has a capital. -/
theorem snakeChars_append_flatten {v w : List Char} (hv : IsBlock v)
    (hlower : v.map Char.toLower = w) {ws : List (List Char)} (hws : ∀ w ∈ ws, IsLongWord w) :
    snakeChars (v ++ (ws.map capitalize).flatten) = ['_'].intercalate (w :: ws) := by
  have hsmall : (ws.map capitalize).map (·.map Char.toLower) = ws := by
    rw [List.map_map]
    exact (List.map_congr_left fun w hw => (hws w hw).map_toLower_capitalize).trans (List.map_id ws)
  rw [snakeChars, words_append_flatten hv hws, List.map_cons, hlower, hsmall]

theorem snakeChars_write {ws : List (List Char)} (h : ∀ w ∈ ws, IsLongWord w) (s : Spelling) :
    snakeChars (s.write ws) = ['_'].intercalate ws := by
  have hwords : ∀ w ∈ ws, IsWord w := fun w hw => (h w hw).isWord
  -- two of the five part words by capitals, the others by a separator
  cases s with
  | camel =>
    cases ws with
    | nil => rfl
    | cons w ws =>
      obtain ⟨hw, hws⟩ := List.forall_mem_cons.mp h
      exact snakeChars_append_flatten hw.isBlock hw.isWord.map_toLower hws
  | pascal =>
    cases ws with
    | nil => rfl
    | cons w ws =>
      obtain ⟨hw, hws⟩ := List.forall_mem_cons.mp h
      exact snakeChars_append_flatten hw.isBlock_capitalize hw.map_toLower_capitalize hws
  | kebab => exact snakeChars_intercalate rfl hwords
  | space => exact snakeChars_intercalate rfl hwords
  | snake => exact snakeChars_intercalate rfl hwords

/-- Words are known from the text in snake case that they make. -/
theorem intercalate_inj {ws ws' : List (List Char)} (h : ∀ w ∈ ws, IsWord w)
    (h' : ∀ w ∈ ws', IsWord w) (heq : ['_'].intercalate ws = ['_'].intercalate ws') : ws = ws' := by
  have hpieces : ∀ {ws : List (List Char)}, (∀ w ∈ ws, IsWord w) →
      pieces (fun c => !c.isAlphanum) (['_'].intercalate ws) = ws :=
    fun h => pieces_intercalate rfl fun w hw => (h w hw).not_separated
  rw [← hpieces h, heq, hpieces h']

/-- **Every spelling of a name stands for the same column**: the words with an underscore between
each and the next, whatever words they are, as long as each begins with a small letter and has more
behind it. Other words are another column, in whichever spellings both are written. -/
theorem snakeCase_write {ws : List (List Char)} (h : ∀ w ∈ ws, IsLongWord w) (s : Spelling) :
    snakeCase (String.ofList (s.write ws)) = String.ofList (['_'].intercalate ws) ∧
    ∀ ws' : List (List Char), (∀ w ∈ ws', IsLongWord w) → ∀ s' : Spelling,
      snakeCase (String.ofList (s'.write ws')) = snakeCase (String.ofList (s.write ws)) →
      ws' = ws := by
  have hcolumn : ∀ {ws : List (List Char)}, (∀ w ∈ ws, IsLongWord w) → ∀ s : Spelling,
      snakeCase (String.ofList (s.write ws)) = String.ofList (['_'].intercalate ws) := by
    intro ws h s
    rw [snakeCase, String.toList_ofList, snakeChars_write h]
  refine ⟨hcolumn h s, fun ws' h' s' heq => ?_⟩
  rw [hcolumn h, hcolumn h', String.ofList_inj] at heq
  exact intercalate_inj (fun w hw => (h' w hw).isWord) (fun w hw => (h w hw).isWord) heq

/-- Two words, the second with a digit in it, make one column however they are written; and the same
letters parted elsewhere make another. -/
theorem snakeCase_write_of_ownerName :
    let ws := [['o', 'w', 'n', 'e', 'r'], ['n', 'a', 'm', 'e', '2']]
    let ws' := [['o', 'w', 'n'], ['e', 'r', 'n', 'a', 'm', 'e', '2']]
    (∀ w ∈ ws, IsLongWord w) ∧ (∀ w ∈ ws', IsLongWord w) ∧
    snakeCase "ownerName2" = "owner_name2" ∧ snakeCase "OwnerName2" = "owner_name2" ∧
    snakeCase "owner-name2" = "owner_name2" ∧ snakeCase "owner name2" = "owner_name2" ∧
    snakeCase "owner_name2" = "owner_name2" ∧ snakeCase "ownErname2" ≠ "owner_name2" := by
  intro ws ws'
  have hws : ∀ w ∈ ws, IsLongWord w := by
    refine List.forall_mem_cons.mpr ⟨⟨'o', ['w', 'n', 'e', 'r'], rfl, rfl, by decide⟩, ?_⟩
    exact List.forall_mem_singleton.mpr ⟨'n', ['a', 'm', 'e', '2'], rfl, rfl, by decide⟩
  have hws' : ∀ w ∈ ws', IsLongWord w := by
    refine List.forall_mem_cons.mpr ⟨⟨'o', ['w', 'n'], rfl, rfl, by decide⟩, ?_⟩
    exact List.forall_mem_singleton.mpr ⟨'e', ['r', 'n', 'a', 'm', 'e', '2'], rfl, rfl, by decide⟩
  -- one theorem for all spellings, of which each is read off
  have hcolumn : ∀ s : Spelling, snakeCase (String.ofList (s.write ws)) = "owner_name2" :=
    fun s => (snakeCase_write hws s).1
  refine ⟨hws, hws', hcolumn .camel, hcolumn .pascal, hcolumn .kebab, hcolumn .space,
    hcolumn .snake, ?_⟩
  intro heq
  have hsame : ws' = ws :=
    (snakeCase_write hws .camel).2 ws' hws' .camel (heq.trans (hcolumn .camel).symm)
  exact absurd hsame (by decide)

end BoundSql.Ident
