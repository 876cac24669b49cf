import BoundSql.Text.Case

/-!
# The case of plain letters

Neither the lower case of a text nor its upper case depends on whether its plain letters were
written small or as capitals. A small letter has the case properties of its capital, so the rule for
the final sigma does not tell them apart either.

* `apply_toLower` — what is the same for a capital and its small letter is blind to their case;
* `lower_lowerLatin`, `upperLatin_lowerLatin` — the case of whole texts.
-/

namespace BoundSql.Text

/-! ### Characters -/

/-- The small letter of a capital, and any other character itself. -/
theorem toLower_ofNat : ∀ n : Fin 26, (Char.ofNat (n + 65)).toLower = Char.ofNat (n + 97) := by
  decide

theorem toLower_of_not_capital {c : Char} (h : ¬ (65 ≤ c.toNat ∧ c.toNat ≤ 90)) :
    c.toLower = c := by
  have hval : ¬ (c.val ≥ 'A'.val ∧ c.val ≤ 'Z'.val) := h
  exact dif_neg hval

/-- **A function is blind to the case of plain letters** if it takes each capital for its small
letter. -/
theorem apply_toLower {β : Type} {f : Char → β}
    (h : ∀ n : Fin 26, f (Char.ofNat (n + 97)) = f (Char.ofNat (n + 65))) (c : Char) :
    f c.toLower = f c := by
  by_cases hcapital : 65 ≤ c.toNat ∧ c.toNat ≤ 90
  · have hletter : c = Char.ofNat ((⟨c.toNat - 65, by omega⟩ : Fin 26) + 65) := by
      rw [Nat.sub_add_cancel hcapital.1, Char.ofNat_toNat]
    rw [hletter, toLower_ofNat, h]
  · rw [toLower_of_not_capital hcapital]

theorem isCased_toLower (c : Char) : isCased c.toLower = isCased c :=
  apply_toLower (by decide +kernel) c

theorem isCaseIgnorable_toLower (c : Char) : isCaseIgnorable c.toLower = isCaseIgnorable c :=
  apply_toLower (by decide +kernel) c

theorem lowerChar_toLower (c : Char) : lowerChar c.toLower = lowerChar c :=
  apply_toLower (by decide) c

theorem upperLatinChar_toLower (c : Char) : upperLatinChar c.toLower = upperLatinChar c :=
  apply_toLower (by decide) c

/-- A capital sigma is no plain letter. -/
theorem toLower_eq_sigma (c : Char) : c.toLower.toNat = 0x3a3 ↔ c.toNat = 0x3a3 :=
  decide_eq_decide.mp (apply_toLower (f := fun c => decide (c.toNat = 0x3a3)) (by decide) c)

/-! ### Texts -/

theorem casedAhead_toLower (cs : List Char) : casedAhead (cs.map Char.toLower) = casedAhead cs := by
  have hdrop : (cs.map Char.toLower).dropWhile isCaseIgnorable =
      (cs.dropWhile isCaseIgnorable).map Char.toLower := by
    rw [List.dropWhile_map]
    congr 2
    exact funext isCaseIgnorable_toLower
  rw [casedAhead, hdrop, List.head?_map, Option.map_map, casedAhead]
  congr 2
  exact funext isCased_toLower

theorem lowerFrom_toLower (before cs : List Char) :
    lowerFrom (before.map Char.toLower) (cs.map Char.toLower) = lowerFrom before cs := by
  induction cs generalizing before with
  | nil => rfl
  | cons c cs ih =>
    have hrest : lowerFrom (c.toLower :: before.map Char.toLower) (cs.map Char.toLower) =
        lowerFrom (c :: before) cs := ih (c :: before)
    rw [List.map_cons, lowerFrom, lowerFrom, hrest]
    simp only [toLower_eq_sigma, casedAhead_toLower, lowerChar_toLower]

/-- A text with its plain letters made small. -/
def lowerLatin (s : String) : String := String.ofList (s.toList.map Char.toLower)

theorem toList_lowerLatin (s : String) : (lowerLatin s).toList = s.toList.map Char.toLower :=
  String.toList_ofList

/-- **The lower case of a text** is the same when its plain letters are small already. -/
theorem lower_lowerLatin (s : String) : lower (lowerLatin s) = lower s := by
  rw [lower, lower, toList_lowerLatin]
  exact congrArg String.ofList (lowerFrom_toLower [] s.toList)

/-- **The upper case of a text** is the same when its plain letters were made small before. -/
theorem upperLatin_lowerLatin (s : String) : upperLatin (lowerLatin s) = upperLatin s := by
  rw [upperLatin, upperLatin, toList_lowerLatin, List.flatMap_map]
  congr 2
  exact funext upperLatinChar_toLower

end BoundSql.Text
