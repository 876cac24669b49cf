import BoundSql.Proofs.Sql.Draft

/-!
# Statements as templates

A driver with percent placeholders reads a statement as a template, from left to right and without
regard to quotes: two percent signs are one literal percent sign, a percent sign and the letter `s`
are a placeholder, and any other percent sign is an error. Names that are not escaped for it can
hold percent signs of any kind.

A percent sign is read with the character behind it, so texts cannot be read apart from what follows
them unless they end in another character. All texts of a draft do: names end in a quote, and
keywords in a blank, a letter or a parenthesis. That is what `Writes` and `Carries` keep, beside the
condition under which all percent signs are doubled.

* `Sql.Percent.count?_append` — a text that does not end in a percent sign is read by itself;
* `Sql.Percent.count?_eq_zero_iff` — it has neither placeholders nor errors where its percent signs
  are doubled;
* `Sql.Percent.count?_quote` — quoting a name leaves that as it is;
* `Sql.Draft.Carries.count?_text` — the placeholders of a draft are those of its values, provided
  that the names in it have their percent signs doubled.
-/

namespace BoundSql.Sql

namespace Percent

/-- The number of placeholders that a driver finds in a template, unless it meets an error. -/
def count? : List Char → Option Nat
  | [] => some 0
  | '%' :: '%' :: cs => count? cs
  | '%' :: 's' :: cs => (count? cs).map (· + 1)
  | '%' :: _ => none
  | _ :: cs => count? cs

/-- Text whose percent signs are written twice, each of them. -/
def Doubled (s : String) : Prop := ∃ cs, s.toList = Text.double '%' cs

/-! ### Reading templates -/

theorem count?_cons_of_ne {c : Char} (hc : c ≠ '%') (cs : List Char) :
    count? (c :: cs) = count? cs := by
  rw [count?]
  · exact fun _ h => absurd h hc
  · exact fun _ h => absurd h hc
  · exact fun h => absurd h hc

theorem count?_percent_cons_of_ne {c : Char} (hpercent : c ≠ '%') (hs : c ≠ 's')
    (cs : List Char) : count? ('%' :: c :: cs) = none := by
  rw [count?]
  · exact fun _ h => absurd (List.cons.inj h).1 hpercent
  · exact fun _ h => absurd (List.cons.inj h).1 hs

/-- **Induction over a template**, one case for each way it can begin. -/
@[elab_as_elim]
theorem template_induction {motive : List Char → Prop} (nil : motive [])
    (percent : ∀ cs, motive cs → motive ('%' :: '%' :: cs))
    (placeholder : ∀ cs, motive cs → motive ('%' :: 's' :: cs))
    (stray : ∀ c cs, c ≠ '%' → c ≠ 's' → motive ('%' :: c :: cs))
    (last : motive ['%'])
    (literal : ∀ c cs, c ≠ '%' → motive cs → motive (c :: cs)) : ∀ cs, motive cs := by
  intro cs
  induction cs using count?.induct with
  | case1 => exact nil
  | case2 cs ih => exact percent cs ih
  | case3 cs ih => exact placeholder cs ih
  | case4 cs hpercent hs =>
    -- a percent sign that is neither doubled nor a placeholder: a stray one, or the last character
    cases cs with
    | nil => exact last
    | cons c cs => exact stray c cs (fun h => hpercent cs (h ▸ rfl)) fun h => hs cs (h ▸ rfl)
  | case5 c cs hdouble hplaceholder hstray ih =>
    exact literal c cs (fun h => hstray h) ih

theorem getLast?_ne_of_cons {c : Char} {cs : List Char} (h : (c :: cs).getLast? ≠ some '%') :
    cs.getLast? ≠ some '%' := by
  cases cs with
  | nil => exact fun h => nomatch h
  | cons d cs => rwa [List.getLast?_cons_cons] at h

/-- **Text that does not end in a percent sign** is read by itself, whatever follows it. -/
theorem count?_append {a : List Char} (ha : a.getLast? ≠ some '%') (b : List Char) :
    count? (a ++ b) = (count? a).bind fun m => (count? b).map (m + ·) := by
  induction a using template_induction with
  | nil =>
    show count? b = (count? b).map (0 + ·)
    cases count? b <;> simp
  | percent cs ih => exact ih (getLast?_ne_of_cons (getLast?_ne_of_cons ha))
  | placeholder cs ih =>
    show (count? (cs ++ b)).map (· + 1) = ((count? cs).map (· + 1)).bind _
    rw [ih (getLast?_ne_of_cons (getLast?_ne_of_cons ha))]
    cases count? cs with
    | none => rfl
    | some m => cases count? b <;> simp [Nat.add_right_comm]
  | stray c cs hpercent hs =>
    -- what cannot be read stays so, whatever follows
    rw [List.cons_append, List.cons_append, count?_percent_cons_of_ne hpercent hs,
      count?_percent_cons_of_ne hpercent hs]
    rfl
  | last => exact absurd rfl ha
  | literal c cs hc ih =>
    rw [List.cons_append, count?_cons_of_ne hc, count?_cons_of_ne hc,
      ih (getLast?_ne_of_cons ha)]

/-- **A template has neither placeholders nor errors where its percent signs are doubled.** -/
theorem count?_eq_zero_iff (cs : List Char) :
    count? cs = some 0 ↔ ∃ ds, cs = Text.double '%' ds := by
  constructor
  · intro h
    -- only doubled signs and other characters are read without a placeholder
    induction cs using template_induction with
    | nil => exact ⟨[], rfl⟩
    | percent cs ih =>
      obtain ⟨ds, rfl⟩ := ih h
      exact ⟨'%' :: ds, rfl⟩
    | placeholder cs ih =>
      obtain ⟨m, -, hm⟩ := Option.map_eq_some_iff.mp h
      exact absurd hm (Nat.succ_ne_zero m)
    | stray c cs hpercent hs =>
      rw [count?_percent_cons_of_ne hpercent hs] at h
      cases h
    | last => cases h
    | literal c cs hc ih =>
      rw [count?_cons_of_ne hc] at h
      obtain ⟨ds, rfl⟩ := ih h
      exact ⟨c :: ds, by rw [Text.double, if_neg hc]⟩
  · -- doubling leaves every other character alone
    rintro ⟨ds, rfl⟩
    induction ds with
    | nil => rfl
    | cons c ds ih =>
      rw [Text.double]
      split
      · exact ih
      · rename_i hc
        rw [count?_cons_of_ne hc, ih]

/-- A character that is neither a percent sign nor an `s` changes nothing behind a text. -/
theorem count?_concat {c : Char} (hpercent : c ≠ '%') (hs : c ≠ 's') (cs : List Char) :
    count? (cs ++ [c]) = count? cs := by
  induction cs using template_induction with
  | nil => exact count?_cons_of_ne hpercent []
  | percent cs ih => exact ih
  | placeholder cs ih => exact congrArg (Option.map (· + 1)) ih
  | stray d cs hd hds =>
    rw [List.cons_append, List.cons_append, count?_percent_cons_of_ne hd hds,
      count?_percent_cons_of_ne hd hds]
  | last => exact count?_percent_cons_of_ne hpercent hs []
  | literal d cs hd ih => rw [List.cons_append, count?_cons_of_ne hd, count?_cons_of_ne hd, ih]

/-- **Quoting a name** leaves the placeholders and errors in it as they are. -/
theorem count?_quote (s : String) : count? (Ident.quote s).toList = count? s.toList := by
  have hdouble : ∀ cs, count? (Text.double '"' cs) = count? cs := by
    intro cs
    induction cs using template_induction with
    | nil => rfl
    | percent cs ih => exact ih
    | placeholder cs ih => exact congrArg (Option.map (· + 1)) ih
    | stray c cs hpercent hs =>
      -- a quote behind a percent sign is an error however often it is written
      rw [count?_percent_cons_of_ne hpercent hs]
      show count? ('%' :: Text.double '"' (c :: cs)) = none
      rw [Text.double]
      split
      · exact count?_percent_cons_of_ne (by decide) (by decide) _
      · exact count?_percent_cons_of_ne hpercent hs _
    | last => rfl
    | literal c cs hc ih =>
      rw [Text.double, count?_cons_of_ne hc]
      split
      · exact ih
      · rw [count?_cons_of_ne hc, ih]
  rw [Ident.quote, Text.toList_quoteWith, count?_cons_of_ne (by decide),
    count?_concat (by decide) (by decide), hdouble]

theorem doubled_iff_count? (s : String) : Doubled s ↔ count? s.toList = some 0 :=
  (count?_eq_zero_iff s.toList).symm

/-- Text that is read by itself, and whose percent signs are doubled exactly if `p` holds. -/
structure Writes (p : Prop) (s : String) : Prop where
  ends : s.toList.getLast? ≠ some '%'
  doubled_iff : Doubled s ↔ p

theorem Writes.congr {p q : Prop} {s : String} (h : Writes p s) (hpq : p ↔ q) : Writes q s :=
  ⟨h.ends, h.doubled_iff.trans hpq⟩

/-- Texts behind one another have their percent signs doubled if both have. -/
theorem Writes.append {p q : Prop} {a b : String} (ha : Writes p a) (hb : Writes q b) :
    Writes (p ∧ q) (a ++ b) := by
  constructor
  · -- the end is that of the second text, or of the first if the second is empty
    rw [String.toList_append, List.getLast?_append]
    have hends := hb.ends
    cases hlast : b.toList.getLast? with
    | none => exact ha.ends
    | some c => rwa [hlast] at hends
  · rw [← ha.doubled_iff, ← hb.doubled_iff, doubled_iff_count?, doubled_iff_count?,
      doubled_iff_count?, String.toList_append, count?_append ha.ends]
    cases count? a.toList with
    | none => simp
    | some m => cases count? b.toList <;> simp

/-- Text with all of its percent signs doubled. -/
theorem writes_of_count? {s : String} (hends : s.toList.getLast? ≠ some '%')
    (h : count? s.toList = some 0) : Writes True s :=
  ⟨hends, iff_true_intro ((doubled_iff_count? s).mpr h)⟩

/-- Text without percent signs. -/
theorem writes_of_not_mem {s : String} (h : '%' ∉ s.toList) : Writes True s := by
  have hcount : ∀ cs : List Char, '%' ∉ cs → count? cs = some 0 := by
    intro cs hcs
    induction cs with
    | nil => rfl
    | cons c cs ih =>
      rw [List.mem_cons, not_or] at hcs
      rw [count?_cons_of_ne (Ne.symm hcs.1), ih hcs.2]
  exact writes_of_count? (fun hlast => h (List.mem_of_getLast? hlast)) (hcount _ h)

/-- **A quoted name** has its percent signs doubled if the name has. -/
theorem writes_quote (name : String) : Writes (Doubled name) (Ident.quote name) := by
  constructor
  · rw [Ident.quote, Text.toList_quoteWith, ← List.cons_append, List.getLast?_concat]
    decide
  · rw [doubled_iff_count?, count?_quote, doubled_iff_count?]

/-- A word with a blank behind it. -/
theorem writes_word (s : String) : Writes (Doubled s) (s ++ " ") := by
  have hblank : (s ++ " ").toList = s.toList ++ [' '] := String.toList_append
  constructor
  · rw [hblank, List.getLast?_concat]
    decide
  · rw [doubled_iff_count?, hblank, count?_concat (by decide) (by decide), doubled_iff_count?]

end Percent

/-! ### Drafts -/

namespace Draft

open Percent

/-- A draft whose texts are read by themselves, and have their percent signs doubled exactly if `p`
holds. -/
structure Carries (p : Prop) (d : Draft) : Prop where
  ends : ∀ s, .verbatim s ∈ d → s.toList.getLast? ≠ some '%'
  doubled_iff : (∀ s, .verbatim s ∈ d → Doubled s) ↔ p

theorem Carries.congr {p q : Prop} {d : Draft} (h : Carries p d) (hpq : p ↔ q) : Carries q d :=
  ⟨h.ends, h.doubled_iff.trans hpq⟩

theorem carries_nil : Carries True [] :=
  ⟨fun _ hs => absurd hs List.not_mem_nil, iff_true_intro fun _ hs => absurd hs List.not_mem_nil⟩

theorem Carries.append {p q : Prop} {d e : Draft} (hd : Carries p d) (he : Carries q e) :
    Carries (p ∧ q) (d ++ e) := by
  constructor
  · intro s hs
    exact (List.mem_append.mp hs).elim (hd.ends s) (he.ends s)
  · rw [← hd.doubled_iff, ← he.doubled_iff]
    simp only [List.mem_append, or_imp, forall_and]

theorem carries_verbatim {p : Prop} {s : String} (hs : Writes p s) : Carries p [.verbatim s] := by
  constructor
  · intro t ht
    cases List.mem_singleton.mp ht
    exact hs.ends
  · rw [← hs.doubled_iff]
    simp

/-- A value in its place has no text. -/
theorem carries_bound (v : Value) : Carries True [.bound v] := by
  constructor
  · intro s hs
    cases List.mem_singleton.mp hs
  · simp

theorem Carries.verbatim_cons {p q : Prop} {s : String} {d : Draft} (hs : Writes p s)
    (hd : Carries q d) : Carries (p ∧ q) (.verbatim s :: d) :=
  (carries_verbatim hs).append hd

/-- Text without percent signs asks for nothing. -/
theorem carries_text {s : String} (h : '%' ∉ s.toList) : Carries True [.verbatim s] :=
  carries_verbatim (writes_of_not_mem h)

theorem Carries.text_cons {p : Prop} {s : String} {d : Draft} (hd : Carries p d)
    (hs : '%' ∉ s.toList) : Carries p (.verbatim s :: d) :=
  ((carries_text hs).append hd).congr (iff_of_eq (true_and p))

theorem Carries.append_text {p : Prop} {s : String} {d : Draft} (hd : Carries p d)
    (hs : '%' ∉ s.toList) : Carries p (d ++ [.verbatim s]) :=
  (hd.append (carries_text hs)).congr (iff_of_eq (and_true p))

/-- **Drafts divided by a text** without percent signs. -/
theorem carries_divided {α : Type} {sep : String} (hsep : Writes True sep) {f : α → Draft}
    {p : α → Prop} {as : List α} (h : ∀ a ∈ as, Carries (p a) (f a)) :
    Carries (∀ a ∈ as, p a) (divided sep (as.map f)) := by
  induction as with
  | nil => exact carries_nil.congr (by simp)
  | cons a as ih =>
    obtain ⟨ha, has⟩ := List.forall_mem_cons.mp h
    have hbehind := ih has
    -- the last draft has no separator behind it
    cases as with
    | nil => exact ha.congr (by simp)
    | cons b bs =>
      have hwhole := ha.append (hbehind.verbatim_cons hsep)
      exact hwhole.congr (by simp)

/-- The placeholders and errors in the texts of a draft. -/
def strays? : Draft → Option Nat
  | [] => some 0
  | .verbatim s :: d => (count? s.toList).bind fun m => (strays? d).map (m + ·)
  | .bound _ :: d => strays? d

theorem strays?_eq_zero_iff (d : Draft) :
    strays? d = some 0 ↔ ∀ s, .verbatim s ∈ d → Doubled s := by
  induction d with
  | nil => simp [strays?]
  | cons part d ih =>
    cases part with
    | bound v => simp [strays?, ih]
    | verbatim s =>
      -- the number of strays is a sum, so it is zero exactly if each of them is
      have hcons : (∀ t, Part.verbatim t ∈ Part.verbatim s :: d → Doubled t) ↔
          Doubled s ∧ ∀ t, .verbatim t ∈ d → Doubled t := by
        simp
      rw [hcons, ← ih, doubled_iff_count?, strays?]
      cases count? s.toList with
      | none => simp
      | some m => cases strays? d <;> simp

/-- A driver finds the placeholders for the values of a draft, and what else is in its texts. -/
theorem count?_text_eq (bound : Nat) {d : Draft}
    (h : ∀ s, .verbatim s ∈ d → s.toList.getLast? ≠ some '%') :
    count? (text .percent bound d).toList = (strays? d).map (· + (values d).length) := by
  induction d generalizing bound with
  | nil => rfl
  | cons part d ih =>
    have hd := fun bound => ih bound fun s hs => h s (List.mem_cons_of_mem _ hs)
    cases part with
    | bound v =>
      -- a value is one placeholder, and no percent sign of the text before it runs into that
      have hplaceholder : (PlaceholderStyle.percent.placeholder (bound + 1 : Nat)).toList =
          ['%', 's'] := by
        show "%s".toList = ['%', 's']
        rfl
      rw [text_bound_cons, String.toList_append, hplaceholder]
      show (count? (text .percent (bound + 1) d).toList).map (· + 1) = _
      rw [hd, Option.map_map]
      rfl
    | verbatim s =>
      rw [text_verbatim_cons, String.toList_append, count?_append (h s List.mem_cons_self), hd,
        strays?, values_verbatim_cons]
      cases count? s.toList with
      | none => rfl
      | some m =>
        cases strays? d with
        | none => rfl
        | some n => simp [Nat.add_assoc]

/-- **The placeholders of a draft** are those of its values exactly if the percent signs in its
texts are doubled. -/
theorem Carries.count?_text {p : Prop} {d : Draft} (h : Carries p d) (bound : Nat) :
    count? (text .percent bound d).toList = some (values d).length ↔ p := by
  rw [count?_text_eq bound h.ends, ← h.doubled_iff, ← strays?_eq_zero_iff]
  cases strays? d <;> simp

end Draft

end BoundSql.Sql
