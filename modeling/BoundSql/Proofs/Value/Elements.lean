import BoundSql.Proofs.Related
import BoundSql.Proofs.Report
import BoundSql.Proofs.Value.JsonText

/-!
# JSON texts, element by element

What `Value.json` writes for a structure is put together from what it writes for its elements, down
to the leaves, which have no elements. `Value.jsonWith` is the same with another rule for leaves.
As an array and an object are known from their texts, two rules give a structure the same text
exactly if they give the same text to every leaf within it, however deep that lies.

* `Within`, `elements_induction` — elements at any depth, and induction along them;
* `jsonWith_json` — `Value.json` follows its own rule for leaves;
* `isText_jsonWith`, `isText_json` — what is written is a JSON text;
* `jsonWith_eq_ok_iff` — two rules for leaves compared.
-/

namespace BoundSql

open Json

namespace Json

/-- Items are only put in another order. -/
theorem mem_of_mem_sortedItems {texts items : List String} {s : String}
    (h : s ∈ sortedItems texts items) : s ∈ items := by
  obtain ⟨pair, hpair, rfl⟩ := List.mem_map.mp h
  exact (List.of_mem_zip (List.mem_mergeSort.mp hpair)).2

/-- Items of any kind in the order of the texts that belong to them. -/
def inTextOrder {α : Type _} (texts : List String) (items : List α) : List α :=
  ((texts.zip items).mergeSort fun a b => textBefore a.1 b.1).map (·.2)

/-- **The order depends on the texts alone.** -/
theorem inTextOrder_map {α β : Type _} (plain : α → String) (item : α → β) (as : List α) :
    inTextOrder (as.map plain) (as.map item) =
      (as.mergeSort fun a b => textBefore (plain a) (plain b)).map item := by
  have hpairs : ((as.map plain).zip (as.map item)) = as.map fun a => (plain a, item a) :=
    List.zip_map' ..
  have hsort := List.map_mergeSort (r := fun a b => textBefore (plain a) (plain b))
    (s := fun a b : String × β => textBefore a.1 b.1) (f := fun a => (plain a, item a))
    (l := as) (fun _ _ _ _ => rfl)
  rw [inTextOrder, hpairs, ← hsort, List.map_map]
  rfl

theorem sortedItems_map {α : Type _} (plain item : α → String) (as : List α) :
    sortedItems (as.map plain) (as.map item) =
      (as.mergeSort fun a b => textBefore (plain a) (plain b)).map item :=
  inTextOrder_map plain item as

/-- Items in this order are the same only if they are the same. -/
theorem sortedItems_inj {texts items items' : List String} (h : items.length = texts.length)
    (h' : items'.length = texts.length) (heq : sortedItems texts items = sortedItems texts items') :
    items = items' := by
  -- both come from one sorting of the plain texts with the items of both lists
  obtain ⟨both, rfl, rfl, rfl⟩ : ∃ both : List (String × String × String),
      texts = both.map (·.1) ∧ items = both.map (·.2.1) ∧ items' = both.map (·.2.2) := by
    have hboth : texts.length = (items.zip items').length := by
      rw [List.length_zip, h, h', Nat.min_self]
    have hsnd : (texts.zip (items.zip items')).map (·.2) = items.zip items' :=
      List.map_snd_zip (Nat.le_of_eq hboth.symm)
    refine ⟨texts.zip (items.zip items'), (List.map_fst_zip (Nat.le_of_eq hboth)).symm, ?_, ?_⟩
    · calc items
        _ = (items.zip items').map (·.1) := (List.map_fst_zip (Nat.le_of_eq (h.trans h'.symm))).symm
        _ = ((texts.zip (items.zip items')).map (·.2)).map (·.1) := by rw [hsnd]
        _ = _ := List.map_map
    · calc items'
        _ = (items.zip items').map (·.2) := (List.map_snd_zip (Nat.le_of_eq (h'.trans h.symm))).symm
        _ = ((texts.zip (items.zip items')).map (·.2)).map (·.2) := by rw [hsnd]
        _ = _ := List.map_map
  rw [sortedItems_map, sortedItems_map, List.map_inj_left] at heq
  exact List.map_inj_left.mpr fun pair hpair => heq pair (List.mem_mergeSort.mpr hpair)

end Json

namespace Value

/-! ### Elements -/

/-- The elements of a structure: the items of a collection, the values of a mapping. -/
def elements : Value → List Value
  | list xs | tuple xs | set xs | frozenset xs => xs
  | map entries => entries.map (·.2)
  | _ => []

/-- Whether a value is made of elements. -/
def isStructure : Value → Bool
  | list _ | tuple _ | set _ | frozenset _ | map _ => true
  | _ => false

/-- **Where a value stands in another**: it is the other, or it stands in an element of it. -/
inductive Within (x : Value) : Value → Prop where
  | self : Within x x
  | element {y v : Value} (hy : y ∈ v.elements) (h : Within x y) : Within x v

theorem Within.trans {x y v : Value} (h : Within x y) (hy : Within y v) : Within x v := by
  induction hy with
  | self => exact h
  | element hmem _ ih => exact .element hmem ih

theorem sizeOf_lt_of_mem_elements {v y : Value} (h : y ∈ v.elements) : sizeOf y < sizeOf v := by
  cases v with
  | list xs | tuple xs | set xs | frozenset xs =>
    have hitem : sizeOf y < sizeOf xs := List.sizeOf_lt_of_mem h
    simp only [list.sizeOf_spec, tuple.sizeOf_spec, set.sizeOf_spec, frozenset.sizeOf_spec]
    omega
  | map entries =>
    -- the value of an entry is smaller than the entry
    obtain ⟨e, he, rfl⟩ := List.mem_map.mp h
    have hentry := List.sizeOf_lt_of_mem he
    obtain ⟨k, v⟩ := e
    simp only [map.sizeOf_spec, Prod.mk.sizeOf_spec] at hentry ⊢
    omega
  | _ => cases h

/-- **Induction along elements.** -/
theorem elements_induction {P : Value → Prop} (h : ∀ v, (∀ y ∈ v.elements, P y) → P v) (v : Value) :
    P v :=
  h v fun y _ => elements_induction h y
termination_by v
decreasing_by exact sizeOf_lt_of_mem_elements (by assumption)

/-- What holds at the leaves within a value. -/
def AtLeaves (P : Value → Prop) (v : Value) : Prop :=
  ∀ x, Within x v → x.isStructure = false → P x

theorem elements_of_leaf {v : Value} (h : v.isStructure = false) : v.elements = [] := by
  cases v <;> first | rfl | cases h

theorem atLeaves_of_leaf {P : Value → Prop} {v : Value} (h : v.isStructure = false) :
    v.AtLeaves P ↔ P v := by
  constructor
  · exact fun hleaves => hleaves v .self h
  · intro hv x hx _
    cases hx with
    | self => exact hv
    | element hy _ =>
      rw [elements_of_leaf h] at hy
      cases hy

theorem atLeaves_of_structure {P : Value → Prop} {v : Value} (h : v.isStructure = true) :
    v.AtLeaves P ↔ ∀ y ∈ v.elements, y.AtLeaves P := by
  constructor
  · exact fun hleaves y hy x hx => hleaves x (.element hy hx)
  · intro helements x hx hleaf
    cases hx with
    | self => rw [h] at hleaf; cases hleaf
    | element hy hx => exact helements _ hy x hx hleaf

/-! ### Writing with another rule for leaves -/

mutual

/-- The JSON text of a value, where `leaf` writes what has no elements. -/
def jsonWith (leaf : Value → Except Misuse String) : Value → Except Misuse String
  | list xs | tuple xs => (jsonItemsWith leaf xs).map Json.array
  | set xs | frozenset xs =>
    (jsonItemsWith leaf xs).map fun items => Json.array (Json.sortedItems (xs.map plainText) items)
  | map entries => (jsonMembersWith leaf entries).map Json.object
  | v => leaf v

/-- The JSON texts of items. -/
def jsonItemsWith (leaf : Value → Except Misuse String) :
    List Value → Except Misuse (List String)
  | [] => .ok []
  | x :: xs => match jsonWith leaf x with
    | .error e => .error e
    | .ok s => (jsonItemsWith leaf xs).map (s :: ·)

/-- The members that the entries of a mapping become. -/
def jsonMembersWith (leaf : Value → Except Misuse String) :
    Entries → Except Misuse (List String)
  | [] => .ok []
  | (k, v) :: rest => match Json.keyText? k with
    | none => .error (.keyNotEncodable k.qualifiedTypeName)
    | some key => match jsonWith leaf v with
      | .error e => .error e
      | .ok s => (jsonMembersWith leaf rest).map (Json.entry key s :: ·)

end

section Leaf

variable {leaf leaf' : Value → Except Misuse String}

theorem jsonWith_of_leaf {v : Value} (h : v.isStructure = false) : v.jsonWith leaf = leaf v := by
  cases v <;> first | rfl | cases h

/-- Items are written one by one. -/
theorem jsonItemsWith_eq_ok_iff {xs : List Value} {items : List String} :
    jsonItemsWith leaf xs = .ok items ↔
      List.Forall₂ (fun x s => x.jsonWith leaf = .ok s) xs items := by
  induction xs generalizing items with
  | nil =>
    rw [jsonItemsWith, List.forall₂_nil_left_iff]
    exact ⟨fun h => (Except.ok.inj h).symm, fun h => by rw [h]⟩
  | cons x xs ih =>
    rw [jsonItemsWith, List.forall₂_cons_left_iff]
    -- the first item that cannot be written is the end of all
    cases hx : x.jsonWith leaf with
    | error e => simp
    | ok s =>
      constructor
      · intro h
        obtain ⟨rest, hrest, rfl⟩ := Report.except_map_eq_ok.mp h
        exact ⟨s, rest, rfl, ih.mp hrest, rfl⟩
      · rintro ⟨s', rest, ⟨⟩, hrest, rfl⟩
        exact Report.except_map_eq_ok.mpr ⟨rest, ih.mpr hrest, rfl⟩

/-- How an entry is written: what is written for its value, under its key. -/
def WritesMember (leaf : Value → Except Misuse String) (e : Value × Value) (m : String) : Prop :=
  ∃ key s, Json.keyText? e.1 = some key ∧ e.2.jsonWith leaf = .ok s ∧ Json.entry key s = m

/-- Entries are written one by one. -/
theorem jsonMembersWith_eq_ok_iff {entries : Entries} {members : List String} :
    jsonMembersWith leaf entries = .ok members ↔
      List.Forall₂ (WritesMember leaf) entries members := by
  induction entries generalizing members with
  | nil =>
    rw [jsonMembersWith, List.forall₂_nil_left_iff]
    exact ⟨fun h => (Except.ok.inj h).symm, fun h => by rw [h]⟩
  | cons e entries ih =>
    obtain ⟨k, v⟩ := e
    rw [jsonMembersWith, List.forall₂_cons_left_iff]
    -- an entry can be written if its key has a text and its value can be written
    cases hk : Json.keyText? k with
    | none => simp [WritesMember, hk]
    | some key =>
      cases hv : v.jsonWith leaf with
      | error e => simp [WritesMember, hk, hv]
      | ok s =>
        constructor
        · intro h
          obtain ⟨rest, hrest, rfl⟩ := Report.except_map_eq_ok.mp h
          exact ⟨_, rest, ⟨key, s, hk, hv, rfl⟩, ih.mp hrest, rfl⟩
        · rintro ⟨_, rest, ⟨key', s', hk', hv', rfl⟩, hrest, rfl⟩
          obtain rfl : key = key' := Option.some.inj (hk.symm.trans hk')
          obtain rfl : s = s' := Except.ok.inj (hv.symm.trans hv')
          exact Report.except_map_eq_ok.mpr ⟨rest, ih.mpr hrest, rfl⟩

/-! ### What is written is a JSON text -/

theorem isText_of_mem_jsonItemsWith {xs : List Value} {items : List String}
    (h : jsonItemsWith leaf xs = .ok items)
    (hxs : ∀ x ∈ xs, ∀ s, x.jsonWith leaf = .ok s → IsText s) : ∀ s ∈ items, IsText s :=
  forall_mem_of_forall₂ (jsonItemsWith_eq_ok_iff.mp h) hxs

theorem isMember_of_mem_jsonMembersWith {entries : Entries} {members : List String}
    (h : jsonMembersWith leaf entries = .ok members)
    (hentries : ∀ e ∈ entries, ∀ s, e.2.jsonWith leaf = .ok s → IsText s) :
    ∀ m ∈ members, IsMember m := by
  refine forall_mem_of_forall₂ (jsonMembersWith_eq_ok_iff.mp h) ?_
  rintro e he _ ⟨key, s, -, hs, rfl⟩
  exact ⟨key, s, hentries e he s hs, rfl⟩

/-- A rule that writes JSON texts for leaves. -/
def WritesTexts (leaf : Value → Except Misuse String) : Prop :=
  ∀ x s, x.isStructure = false → leaf x = .ok s → IsText s

/-- **What is written is a JSON text**, if it is for leaves. -/
theorem isText_jsonWith (hleaf : WritesTexts leaf) {v : Value} {s : String}
    (h : v.jsonWith leaf = .ok s) : IsText s := by
  induction v using elements_induction generalizing s with
  | h v ih =>
    cases v with
    | list xs | tuple xs =>
      obtain ⟨items, hitems, rfl⟩ := Report.except_map_eq_ok.mp h
      exact .array (isText_of_mem_jsonItemsWith hitems fun x hx s hs => ih x hx hs)
    | set xs | frozenset xs =>
      -- sorting puts the same items in another order
      obtain ⟨items, hitems, rfl⟩ := Report.except_map_eq_ok.mp h
      exact .array fun s hs => isText_of_mem_jsonItemsWith hitems (fun x hx s hs => ih x hx hs) s
        (mem_of_mem_sortedItems hs)
    | map entries =>
      obtain ⟨members, hmembers, rfl⟩ := Report.except_map_eq_ok.mp h
      exact isText_object (isMember_of_mem_jsonMembersWith hmembers fun e he s hs =>
        ih e.2 (List.mem_map_of_mem he) hs)
    | _ => exact hleaf _ s rfl h

/-! ### Two rules compared -/

/-- Items are known from the array that is made of them. -/
theorem map_array_eq_ok_iff {written : Except Misuse (List String)} {items : List String}
    (h : ∀ s ∈ items, IsText s) (h' : ∀ items', written = .ok items' → ∀ s ∈ items', IsText s) :
    written.map Json.array = .ok (Json.array items) ↔ written = .ok items := by
  rw [Report.except_map_eq_ok]
  constructor
  · rintro ⟨items', hwritten, heq⟩
    rw [hwritten, array_injective (h' items' hwritten) h heq]
  · exact fun hwritten => ⟨items, hwritten, rfl⟩

/-- So they are if they are put in the order of texts. -/
theorem map_sorted_eq_ok_iff {texts : List String} {written : Except Misuse (List String)}
    {items : List String} (h : (∀ s ∈ items, IsText s) ∧ items.length = texts.length)
    (h' : ∀ items', written = .ok items' →
      (∀ s ∈ items', IsText s) ∧ items'.length = texts.length) :
    (written.map fun items => Json.array (Json.sortedItems texts items)) =
      .ok (Json.array (Json.sortedItems texts items)) ↔ written = .ok items := by
  rw [Report.except_map_eq_ok]
  constructor
  · rintro ⟨items', hwritten, heq⟩
    -- both lists are sorted by the same texts, so what is sorted alike is alike
    obtain ⟨htexts, hlength⟩ := h' items' hwritten
    have hsorted := array_injective (fun s hs => htexts s (mem_of_mem_sortedItems hs))
      (fun s hs => h.1 s (mem_of_mem_sortedItems hs)) heq
    rw [hwritten, sortedItems_inj hlength h.2 hsorted]
  · exact fun hwritten => ⟨items, hwritten, rfl⟩

/-- Members are known from the object that is made of them. -/
theorem map_object_eq_ok_iff {written : Except Misuse (List String)} {members : List String}
    (h : ∀ m ∈ members, IsMember m) (h' : ∀ members', written = .ok members' →
      ∀ m ∈ members', IsMember m) :
    written.map Json.object = .ok (Json.object members) ↔ written = .ok members := by
  rw [Report.except_map_eq_ok]
  constructor
  · rintro ⟨members', hwritten, heq⟩
    rw [hwritten, object_injective (h' members' hwritten) h heq]
  · exact fun hwritten => ⟨members, hwritten, rfl⟩

/-- Two rules write the same member if they write the same value. -/
theorem writesMember_iff {e : Value × Value} {m : String} {P : Value → Prop}
    (h : WritesMember leaf e m)
    (hiff : ∀ s, e.2.jsonWith leaf = .ok s → (e.2.jsonWith leaf' = .ok s ↔ P e.2)) :
    WritesMember leaf' e m ↔ P e.2 := by
  obtain ⟨key, s, hkey, hs, rfl⟩ := h
  rw [← hiff s hs]
  constructor
  · rintro ⟨key', s', hkey', hs', heq⟩
    obtain rfl : key' = key := Option.some.inj (hkey'.symm.trans hkey)
    rw [← entry_injective heq]
    exact hs'
  · exact fun hs' => ⟨key, s, hkey, hs', rfl⟩

/-- **Two rules for leaves compared.** What one rule writes for a value the other writes too exactly
if the two agree at every leaf within it. -/
theorem jsonWith_eq_ok_iff (hleaf : WritesTexts leaf) (hleaf' : WritesTexts leaf') {v : Value}
    {s : String} (h : v.jsonWith leaf = .ok s) :
    v.jsonWith leaf' = .ok s ↔ v.AtLeaves fun x => leaf' x = leaf x := by
  -- items are written as texts, so an array of them can be taken apart
  have htexts {leaf : Value → Except Misuse String} (hleaf : WritesTexts leaf) {xs : List Value}
      (items : List String) (hitems : jsonItemsWith leaf xs = .ok items) :
      (∀ s ∈ items, IsText s) ∧ items.length = (xs.map plainText).length := by
    constructor
    · exact isText_of_mem_jsonItemsWith hitems fun _ _ _ hs => isText_jsonWith hleaf hs
    · rw [List.length_map, (jsonItemsWith_eq_ok_iff.mp hitems).length_eq]
  have hmembers {leaf : Value → Except Misuse String} (hleaf : WritesTexts leaf)
      {entries : Entries} (members : List String)
      (hwritten : jsonMembersWith leaf entries = .ok members) : ∀ m ∈ members, IsMember m :=
    isMember_of_mem_jsonMembersWith hwritten fun _ _ _ hs => isText_jsonWith hleaf hs
  induction v using elements_induction generalizing s with
  | h v ih =>
    have hitems : ∀ {xs items}, (∀ x ∈ xs, x ∈ v.elements) → jsonItemsWith leaf xs = .ok items →
        (jsonItemsWith leaf' xs = .ok items ↔ ∀ x ∈ xs, x.AtLeaves fun x => leaf' x = leaf x) := by
      intro xs items hxs hitems
      rw [jsonItemsWith_eq_ok_iff] at hitems ⊢
      exact forall₂_iff_forall_mem hitems fun x hx s hs => ih x (hxs x hx) hs
    -- what is put together is taken apart again, and the elements are compared one by one
    cases v with
    | list xs | tuple xs =>
      obtain ⟨items, hxs, rfl⟩ := Report.except_map_eq_ok.mp h
      rw [atLeaves_of_structure rfl]
      exact (map_array_eq_ok_iff (htexts hleaf items hxs).1 fun items' hxs' =>
        (htexts hleaf' items' hxs').1).trans (hitems (fun _ hx => hx) hxs)
    | set xs | frozenset xs =>
      obtain ⟨items, hxs, rfl⟩ := Report.except_map_eq_ok.mp h
      rw [atLeaves_of_structure rfl]
      exact (map_sorted_eq_ok_iff (htexts hleaf items hxs) (htexts hleaf')).trans
        (hitems (fun _ hx => hx) hxs)
    | map entries =>
      obtain ⟨members, hentries, rfl⟩ := Report.except_map_eq_ok.mp h
      rw [atLeaves_of_structure rfl]
      refine (map_object_eq_ok_iff (hmembers hleaf members hentries) (hmembers hleaf')).trans ?_
      rw [jsonMembersWith_eq_ok_iff] at hentries ⊢
      rw [elements, List.forall_mem_map]
      exact forall₂_iff_forall_mem hentries fun e he m hm =>
        writesMember_iff hm fun s hs => ih e.2 (List.mem_map_of_mem he) hs
    | _ =>
      rw [jsonWith_of_leaf rfl] at h ⊢
      rw [atLeaves_of_leaf rfl, h]

end Leaf

/-! ### The rule of JSON itself -/

/-- **A value is written element by element** with its own rule for leaves. -/
theorem jsonWith_json (v : Value) : v.jsonWith json = v.json := by
  induction v using elements_induction with
  | h v ih =>
    -- the two recursions go through a list in the same steps
    have hitems {xs : List Value} (hxs : ∀ x ∈ xs, x.jsonWith json = x.json) :
        jsonItemsWith json xs = jsonItems xs := by
      induction xs with
      | nil => rfl
      | cons x xs ihxs =>
        obtain ⟨hx, hxs⟩ := List.forall_mem_cons.mp hxs
        cases hjson : x.json with
        | error m => simp only [jsonItemsWith, jsonItems, hx, hjson]
        | ok s => simp only [jsonItemsWith, jsonItems, hx, hjson, ihxs hxs]
    -- and through a mapping, where a key without a text stops both
    have hmembers {entries : Entries} (hentries : ∀ e ∈ entries, e.2.jsonWith json = e.2.json) :
        jsonMembersWith json entries = jsonMembers entries := by
      induction entries with
      | nil => rfl
      | cons e entries ihentries =>
        obtain ⟨k, v⟩ := e
        obtain ⟨he, hentries⟩ := List.forall_mem_cons.mp hentries
        cases hkey : Json.keyText? k with
        | none => simp only [jsonMembersWith, jsonMembers, hkey]
        | some key =>
          cases hjson : v.json with
          | error m => simp only [jsonMembersWith, jsonMembers, hkey, he, hjson]
          | ok s => simp only [jsonMembersWith, jsonMembers, hkey, he, hjson, ihentries hentries]
    cases v with
    | list xs | tuple xs | set xs | frozenset xs => rw [jsonWith, json, @hitems xs ih]
    | map entries =>
      rw [jsonWith, json, hmembers fun e he => ih e.2 (List.mem_map_of_mem he)]
    | _ => exact jsonWith_of_leaf rfl

/-- How a member is written: as the text or the number it is, or as its plain text. -/
theorem isText_of_json_member {type name : String} {base : MemberBase} {value : Value} {s : String}
    (h : (member type base name value).json = .ok s) : IsText s := by
  unfold json at h
  split at h
  all_goals first | contradiction | cases h
  all_goals first | exact .string _ | exact isText_int _

theorem writesTexts_json : WritesTexts json := by
  intro x s hx h
  cases x with
  | null =>
    obtain rfl := Except.ok.inj h
    exact .word (by decide) (by decide)
  | bool b =>
    obtain rfl := Except.ok.inj h
    cases b <;> exact .word (by decide) (by decide)
  | int n =>
    obtain rfl := Except.ok.inj h
    exact isText_int n
  | float f =>
    obtain rfl := Except.ok.inj h
    exact isText_float f
  | member type base name value => exact isText_of_json_member h
  -- a structure is no leaf
  | list xs | tuple xs | set xs | frozenset xs | map entries => cases hx
  | _ =>
    obtain rfl := Except.ok.inj h
    exact .string _

/-- **What is written for a value is a JSON text.** -/
theorem isText_json {v : Value} {s : String} (h : v.json = .ok s) : IsText s :=
  isText_jsonWith writesTexts_json ((jsonWith_json v).trans h)

end Value

end BoundSql
