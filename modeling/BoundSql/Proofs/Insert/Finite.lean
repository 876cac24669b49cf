import BoundSql.Proofs.Insert.RoundTrip
import BoundSql.Proofs.Json.Outside

/-!
# Structures with numbers that are not finite

What is written for a value is JSON if all numbers in it are finite. JSON has no numerals for the
others, and the names they are written by are no words of JSON. One of them anywhere within a
structure, however deep, is enough: its name stands outside strings in the whole text, where the
grammar has no such letters.

So the text that is bound for a structure is JSON exactly if every number within it is finite.

* `Value.outside_subset_of_within` — what is written for a value stands in the text of the whole;
* `Value.isJsonText_json_iff` — which values are written as JSON;
* `Value.isJsonText_stored_iff` — which structures are bound as JSON.
-/

namespace BoundSql

open Json

/-- Whether a floating point number is finite. -/
def FloatText.isFinite : FloatText → Bool
  | .finite .. => true
  | _ => false

namespace Value

/-- **Every floating point number within a value is finite**, however deep it lies. -/
def FiniteWithin (v : Value) : Prop := ∀ f, Within (float f) v → f.isFinite = true

/-! ### Finite numbers -/

/-- **How a leaf is written**: as a string, as a whole number, or as a word of its own. -/
theorem json_leaf_cases {x : Value} (h : x.isStructure = false) :
    (∃ t, x.json = .ok (string t)) ∨ (∃ n : Int, x.json = .ok (toString n)) ∨ x = null ∨
      (∃ b, x = bool b) ∨ ∃ f, x = float f := by
  cases x with
  | null => exact .inr (.inr (.inl rfl))
  | bool b => exact .inr (.inr (.inr (.inl ⟨b, rfl⟩)))
  | int n => exact .inr (.inl ⟨n, rfl⟩)
  | float f => exact .inr (.inr (.inr (.inr ⟨f, rfl⟩)))
  | member type base name value =>
    -- as the text or the number it is built on, or as its plain text
    cases base with
    | plain => exact .inl ⟨_, rfl⟩
    | text => cases value <;> exact .inl ⟨_, rfl⟩
    | integer =>
      cases value with
      | int n => exact .inr (.inl ⟨n, rfl⟩)
      | _ => exact .inl ⟨_, rfl⟩
  | list xs | tuple xs | set xs | frozenset xs | map es => cases h
  | _ => exact .inl ⟨_, rfl⟩

/-- What is written for a leaf is in the grammar, unless it is a number that is not finite. -/
theorem exists_denotes_of_leaf {x : Value} (hleaf : x.isStructure = false) (h : x.FiniteWithin)
    {s : String} (hs : x.json = .ok s) : ∃ v, Denotes s.toList v := by
  rcases json_leaf_cases hleaf with ⟨t, ht⟩ | ⟨n, hn⟩ | rfl | ⟨b, rfl⟩ | ⟨f, rfl⟩
  · obtain rfl := Except.ok.inj (ht.symm.trans hs)
    exact ⟨_, .string (isString_string t)⟩
  · obtain rfl := Except.ok.inj (hn.symm.trans hs)
    exact ⟨_, denotes_int n⟩
  · obtain rfl := Except.ok.inj hs
    exact ⟨_, denotes_null⟩
  · obtain rfl := Except.ok.inj hs
    exact ⟨_, denotes_bool b⟩
  · obtain rfl := Except.ok.inj hs
    -- of floating point numbers only the finite ones are in the grammar
    cases f with
    | finite negative whole fraction exponent =>
      exact ⟨_, .word (.number (isNumber_float negative whole fraction exponent))⟩
    | _ => cases h _ .self

/-- What is finite within a value is finite within what stands in it. -/
theorem FiniteWithin.of_within {x v : Value} (h : v.FiniteWithin) (hx : Within x v) :
    x.FiniteWithin := fun f hf => h f (hf.trans hx)

/-- **A value with finite numbers only is written as JSON.** -/
theorem isJsonText_of_finiteWithin {v : Value} (h : v.FiniteWithin) {s : String}
    (hs : v.json = .ok s) : IsJsonText s := by
  -- what each leaf stands for is found one by one
  have hread : ∀ x : Value, ∃ w, x.isStructure = false → x.FiniteWithin →
      ∀ t, x.json = .ok t → Denotes t.toList w := by
    intro x
    by_cases hleaf : x.isStructure = false ∧ x.FiniteWithin
    · cases hx : x.json with
      | error m => exact ⟨null, fun _ _ t ht => nomatch ht⟩
      | ok t =>
        obtain ⟨w, hw⟩ := exists_denotes_of_leaf hleaf.1 hleaf.2 hx
        exact ⟨w, fun _ _ t' ht' => Except.ok.inj ht' ▸ hw⟩
    · exact ⟨null, fun hstructure hfinite => absurd ⟨hstructure, hfinite⟩ hleaf⟩
  choose leaf hleaf using hread
  have hleaves : v.AtLeaves (ReadAs leaf) := fun x hx hstructure =>
    hleaf x hstructure (h.of_within hx)
  exact ⟨_, .mk (denotes_json hleaves hs) isGap_nil isGap_nil (List.append_nil _).symm⟩

/-! ### Numbers that are not finite -/

/-- What is written for an element stands in the text of the whole. -/
theorem outside_subset_of_mem_elements {y v : Value} (hy : y ∈ v.elements) {s : String}
    (h : v.json = .ok s) :
    ∃ t, y.json = .ok t ∧ outside t.toList ⊆ outside s.toList := by
  -- the text of an element ends outside of all strings, so it stands in the whole as it is
  have hclosed {x : Value} {t : String} (ht : x.jsonWith json = .ok t) : IsClosed t.toList :=
    (isText_jsonWith writesTexts_json ht).isClosed
  rw [← jsonWith_json] at h
  simp only [← jsonWith_json y]
  cases v with
  | list xs | tuple xs =>
    obtain ⟨items, hxs, rfl⟩ := Report.except_map_eq_ok.mp h
    obtain ⟨ps, rfl, rfl, hps⟩ := exists_pairs (jsonItemsWith_eq_ok_iff.mp hxs)
    obtain ⟨p, hp, rfl⟩ := List.mem_map.mp hy
    have hitems : ∀ t ∈ ps.map (·.2), IsClosed t.toList :=
      List.forall_mem_map.mpr fun p hp => hclosed (hps p hp)
    exact ⟨p.2, hps p hp, (isClosed_array hitems).2 p.2 (List.mem_map_of_mem hp)⟩
  | set xs | frozenset xs =>
    -- the items of a set are sorted before they are joined
    obtain ⟨items, hxs, rfl⟩ := Report.except_map_eq_ok.mp h
    obtain ⟨ps, rfl, rfl, hps⟩ := exists_pairs (jsonItemsWith_eq_ok_iff.mp hxs)
    obtain ⟨p, hp, rfl⟩ := List.mem_map.mp hy
    rw [List.map_map, sortedItems_map]
    have hitems : ∀ t ∈ (ps.mergeSort fun a b => textBefore a.1.plainText b.1.plainText).map (·.2),
        IsClosed t.toList :=
      List.forall_mem_map.mpr fun p hp => hclosed (hps p (List.mem_mergeSort.mp hp))
    exact ⟨p.2, hps p hp, (isClosed_array hitems).2 p.2
      (List.mem_map_of_mem (List.mem_mergeSort.mpr hp))⟩
  | map entries =>
    -- the element stands behind its key
    obtain ⟨members, hentries, rfl⟩ := Report.except_map_eq_ok.mp h
    obtain ⟨ps, rfl, rfl, hps⟩ := exists_entries (jsonMembersWith_eq_ok_iff.mp hentries)
    obtain ⟨e, he, rfl⟩ := List.mem_map.mp hy
    obtain ⟨p, hp, rfl⟩ := List.mem_map.mp he
    have hmembers : ∀ m ∈ ps.map (fun p => entry ((keyText? p.1.1).getD "") p.2),
        IsClosed m.toList :=
      List.forall_mem_map.mpr fun p hp => (isClosed_entry _ (hclosed (hps p hp))).1
    have hmember := (isClosed_object hmembers).2 _ (List.mem_map_of_mem hp)
    exact ⟨p.2, hps p hp,
      List.Subset.trans (isClosed_entry _ (hclosed (hps p hp))).2 hmember⟩
  | _ => cases hy

/-- **What is written for a value within another** stands in the text of the whole. -/
theorem outside_subset_of_within {x v : Value} (hx : Within x v) {s : String}
    (h : v.json = .ok s) :
    ∃ t, x.json = .ok t ∧ outside t.toList ⊆ outside s.toList := by
  induction hx generalizing s with
  | self => exact ⟨s, h, List.Subset.refl _⟩
  | element hy _ ih =>
    obtain ⟨u, hu, hsubset⟩ := outside_subset_of_mem_elements hy h
    obtain ⟨t, ht, hsubset'⟩ := ih hu
    exact ⟨t, ht, List.Subset.trans hsubset' hsubset⟩

/-- The name of a number that is not finite has a letter that JSON has in strings only. -/
theorem exists_letter_of_not_isFinite {f : FloatText} (h : f.isFinite = false) :
    ∃ c ∈ outside f.json.toList, c = 'N' ∨ c = 'I' := by
  cases f with
  | nan => exact ⟨'N', by decide, .inl rfl⟩
  | infinity negative =>
    refine ⟨'I', ?_, .inr rfl⟩
    cases negative <;> decide
  | finite negative whole fraction exponent => cases h

/-- **Which values are written as JSON**: those within which all numbers are finite. -/
theorem isJsonText_json_iff {v : Value} {s : String} (h : v.json = .ok s) :
    IsJsonText s ↔ v.FiniteWithin := by
  refine ⟨fun hjson f hf => ?_, fun hfinite => isJsonText_of_finiteWithin hfinite h⟩
  cases hfinite : f.isFinite with
  | true => rfl
  | false =>
    -- the name of the number brings a letter into the whole that no JSON text has
    obtain ⟨c, hc, hletter⟩ := exists_letter_of_not_isFinite hfinite
    obtain ⟨t, ht, hsubset⟩ := outside_subset_of_within hf h
    obtain rfl := Except.ok.inj ht
    obtain ⟨hn, hi⟩ := hjson.letters c (hsubset hc)
    exact absurd hletter (by simp [hn, hi])

/-! ### What is bound -/

/-- A leaf that is bound as JSON by itself or a floating point number of any kind. -/
def IsNumericDatum (x : Value) : Prop := x.IsDatum ∨ ∃ f, x = float f

/-- **Which structures are bound as JSON.** For every structure that is not bound as an array
literal:

* if anything is bound, it is a text, and the text is JSON exactly if every floating point number
  within the structure, at any depth, is finite;
* a text is bound if the structure is built of texts, numbers of any kind, truth values and nothing,
  to any depth.
-/
theorem isJsonText_stored_iff {arrays : List String} {column : String} {v : Value}
    (hstructure : v.isStructure = true) (hbranch : column ∉ arrays ∨ v.collected? = none) :
    (∀ bound, v.stored arrays column = .ok bound →
      ∃ s, bound = text s ∧ (IsJsonText s ↔ v.FiniteWithin)) ∧
    (v.BuiltOf IsNumericDatum → ∃ s, v.stored arrays column = .ok (text s)) := by
  rw [stored_eq_json hstructure hbranch]
  constructor
  · intro bound hbound
    obtain ⟨s, hs, rfl⟩ := Report.except_map_eq_ok.mp hbound
    exact ⟨s, rfl, isJsonText_json_iff hs⟩
  · intro hv
    -- numbers that are not finite are written too, if not as JSON
    have hleaf : ∀ x : Value, x.IsNumericDatum → ∃ s, x.json = .ok s := by
      rintro x (hx | ⟨f, rfl⟩)
      · obtain ⟨s, hs, -⟩ := hx.exists_json
        exact ⟨s, hs⟩
      · exact ⟨f.json, rfl⟩
    obtain ⟨s, hs⟩ := hv.exists_json hleaf
    exact ⟨s, by rw [hs]; rfl⟩

/-- A set of two finite numbers, one of them with an exponent, in a list. -/
def finiteData : Value :=
  list [set [float (.finite false 0 [⟨5, by decide⟩] none), float (.finite true 1 [] (some 300))]]

/-- A number that is not finite, in a mapping. -/
def ratio : Value := map [(text "ratio", float .nan)]

/-- JSON is bound for the first, and for the second a text that is not JSON. -/
theorem isJsonText_stored_iff_of_ratio :
    (∃ s, finiteData.stored ["tags"] "meta" = .ok (text s) ∧ IsJsonText s) ∧
    ratio.stored ["meta"] "meta" = .ok (text "\x7b\"ratio\": NaN\x7d") ∧
    ¬ IsJsonText "\x7b\"ratio\": NaN\x7d" := by
  have hfloat (f : FloatText) : (float f).BuiltOf IsNumericDatum := .leaf rfl (.inr ⟨f, rfl⟩)
  have hdata : finiteData.BuiltOf IsNumericDatum :=
    .list (List.forall_mem_singleton.mpr (.set (List.forall_mem_cons.mpr
      ⟨hfloat _, List.forall_mem_singleton.mpr (hfloat _)⟩)))
  -- the two numbers of the set are all there are within
  have hfinite : finiteData.FiniteWithin := by
    intro f hf
    cases hf with
    | element hset hf =>
      obtain rfl := List.mem_singleton.mp hset
      cases hf with
      | element hitem hf =>
        simp only [elements, List.mem_cons, List.not_mem_nil, or_false] at hitem
        rcases hitem with rfl | rfl
        all_goals
          cases hf with
          | self => rfl
          | element hnone _ => cases hnone
  -- the number stands right under the key
  have hnan : ¬ ratio.FiniteWithin := by
    intro hfinite
    have hwithin : Within (float .nan) ratio := .element List.mem_cons_self .self
    cases hfinite _ hwithin
  have hratio : ratio.stored ["meta"] "meta" = .ok (text "\x7b\"ratio\": NaN\x7d") := rfl
  have hcolumn : "meta" ∉ ["tags"] := by decide
  obtain ⟨hjson, htext⟩ := @isJsonText_stored_iff ["tags"] "meta" finiteData rfl (.inl hcolumn)
  obtain ⟨hjson', -⟩ := @isJsonText_stored_iff ["meta"] "meta" ratio rfl (.inr rfl)
  obtain ⟨s, hs⟩ := htext hdata
  obtain ⟨_, hsame, hiff⟩ := hjson _ hs
  obtain ⟨_, hsame', hiff'⟩ := hjson' _ hratio
  cases hsame
  cases hsame'
  exact ⟨⟨s, hs, hiff.mpr hfinite⟩, hratio, fun h => hnan (hiff'.mp h)⟩

/-- **What is bound for a structure is not always JSON**: a number that is not finite is written by
its name. -/
theorem not_isJsonText_of_ratio :
    ¬ ∀ (arrays : List String) (column : String) (v : Value), v.BuiltOf IsNumericDatum →
      v.isStructure = true → (column ∉ arrays ∨ v.collected? = none) →
      ∀ s, v.stored arrays column = .ok (text s) → IsJsonText s := by
  intro h
  have hratio : ratio.BuiltOf IsNumericDatum :=
    .map (List.forall_mem_singleton.mpr ⟨"ratio", rfl⟩)
      (List.forall_mem_singleton.mpr (.leaf rfl (.inr ⟨.nan, rfl⟩)))
  have hjson : IsJsonText "\x7b\"ratio\": NaN\x7d" := h [] "meta" ratio hratio rfl (.inr rfl) _ rfl
  -- a reader of JSON does not get past the name
  have hread : read? "\x7b\"ratio\": NaN\x7d" = none := rfl
  rw [isJsonText_iff_isSome_read?, hread] at hjson
  cases hjson

end Value

end BoundSql
