import BoundSql.Proofs.Json.Reader
import BoundSql.Proofs.Value.Elements

/-!
# Written values read back

What `Value.json` writes for a structure is in the grammar if what it writes for the leaves is. An
array or an object is written in one way of the many that the grammar has: with a blank behind every
comma and colon and without any other gap.

JSON knows one kind of collection, so it does not tell a tuple from a list, and a set is the list of
its items in the order of their texts. Nothing else is lost: `Value.jsonForm` is what a structure is
read back as.

* `denotes_array`, `denotes_object` — arrays and objects of texts that are in the grammar;
* `Value.jsonForm` — lists for all collections, texts for all keys;
* `Value.denotes_json` — what is written stands for that form.
-/

namespace BoundSql

namespace Json

/-! ### Words as they are written -/

theorem denotes_null : Denotes "null".toList .null := by
  have hchars : "null".toList = ['n', 'u', 'l', 'l'] := by decide
  rw [hchars]
  exact .word .null

theorem denotes_bool (b : Bool) : Denotes (if b then "true" else "false").toList (.bool b) := by
  cases b with
  | true =>
    have hchars : "true".toList = ['t', 'r', 'u', 'e'] := by decide
    rw [if_pos rfl, hchars]
    exact .word .yes
  | false =>
    have hchars : "false".toList = ['f', 'a', 'l', 's', 'e'] := by decide
    rw [if_neg Bool.false_ne_true, hchars]
    exact .word .no

theorem denotes_int (n : Int) : Denotes (toString n).toList (.int n) := by
  have hnumber := Denotes.word (.number (isNumber_int n))
  rwa [numberValue_intNumeral] at hnumber

/-! ### Arrays and objects as they are written -/

/-- Items with a blank behind each comma are items with gaps. -/
theorem joined_closed (close : Char) {gap : List Char} (hgap : IsGap gap) (s : String)
    (items : List String) :
    Joined close ((s :: items).map String.toList) (gap ++ closed close (s :: items)) := by
  induction items generalizing gap s with
  | nil =>
    rw [closed_cons]
    exact .last hgap isGap_nil
  | cons t items ih =>
    rw [closed_cons]
    exact .more hgap isGap_nil (ih isGap_blank t)

theorem listed_closed (close : Char) (items : List String) :
    Listed close (items.map String.toList) (closed close items) := by
  cases items with
  | nil => exact .none isGap_nil
  | cons s items => exact .some (joined_closed close isGap_nil s items)

section Items

variable {α : Type} {as : List α} {text : α → String} {value : α → Value}

/-- **An array of texts** stands for the list of what they stand for. -/
theorem denotes_array (h : ∀ a ∈ as, Denotes (text a).toList (value a)) :
    Denotes (array (as.map text)).toList (.list (as.map value)) := by
  let items := as.map fun a => ((text a).toList, value a)
  have htexts : items.map (·.1) = (as.map text).map String.toList := by
    simp [items]
  have hvalues : items.map (·.2) = as.map value := by
    simp [items]
  have hlisted := listed_closed ']' (as.map text)
  rw [← htexts] at hlisted
  rw [toList_array, ← hvalues]
  exact .array (List.forall_mem_map.mpr h) hlisted

/-- A member as it is written: with a blank behind the colon. -/
def writtenMember (key text : String) (value : Value) : Member where
  quoted := (string key).toList
  key := key
  before := []
  after := [' ']
  chars := text.toList
  value := value

theorem isKeyed_writtenMember (key text : String) (value : Value) :
    (writtenMember key text value).IsKeyed where
  key := by simpa only [writtenMember] using isString_string key
  before := isGap_nil
  after := isGap_blank

theorem text_writtenMember (key text : String) (value : Value) :
    (writtenMember key text value).text = (entry key text).toList := by
  rw [toList_entry, Member.text, writtenMember, List.nil_append, List.singleton_append]

/-- **An object of texts under keys** stands for the mapping of the keys to what they stand for. -/
theorem denotes_object {key : α → String} (h : ∀ a ∈ as, Denotes (text a).toList (value a)) :
    Denotes (object (as.map fun a => entry (key a) (text a))).toList
      (.map (as.map fun a => (.text (key a), value a))) := by
  let members := as.map fun a => writtenMember (key a) (text a) (value a)
  have htexts : members.map Member.text =
      (as.map fun a => entry (key a) (text a)).map String.toList := by
    simp only [members, List.map_map, Function.comp_def, text_writtenMember]
  have hentries : members.map Member.entry = as.map fun a => (.text (key a), value a) :=
    List.map_map
  -- the keys are texts, so each is written as a string
  have hkeys : ∀ m ∈ members, m.IsKeyed :=
    List.forall_mem_map.mpr fun a _ => isKeyed_writtenMember (key a) (text a) (value a)
  have hlisted := listed_closed '\x7d' (as.map fun a => entry (key a) (text a))
  rw [← htexts] at hlisted
  rw [toList_object, ← hentries]
  exact .object hkeys (List.forall_mem_map.mpr h) hlisted

end Items

end Json

namespace Value

open Json

/-! ### The form that JSON has of a value -/

section Form

variable (leaf : Value → Value)

mutual

/-- **The form that JSON has of a value**: every collection is a list, a set in the order of the
plain texts of its items, and every key of a mapping a text. What has no elements is left to
`leaf`. -/
def jsonForm : Value → Value
  | list xs | tuple xs => list (jsonForms xs)
  | set xs | frozenset xs => list (inTextOrder (xs.map plainText) (jsonForms xs))
  | map entries => map (jsonEntries entries)
  | v => leaf v

/-- The forms of items. -/
def jsonForms : List Value → List Value
  | [] => []
  | x :: xs => jsonForm x :: jsonForms xs

/-- The forms of entries. -/
def jsonEntries : Entries → Entries
  | [] => []
  | (k, v) :: rest => (text ((keyText? k).getD ""), jsonForm v) :: jsonEntries rest

end

theorem jsonForms_eq_map (xs : List Value) : jsonForms leaf xs = xs.map (jsonForm leaf) := by
  induction xs with
  | nil => rfl
  | cons x xs ih => rw [jsonForms, ih, List.map_cons]

theorem jsonEntries_eq_map (entries : Entries) : jsonEntries leaf entries =
    entries.map fun e => (text ((keyText? e.1).getD ""), e.2.jsonForm leaf) := by
  induction entries with
  | nil => rfl
  | cons e entries ih => rw [jsonEntries, ih, List.map_cons]

/-- **A set is the list of its items** in the order of their plain texts. -/
theorem jsonForm_set (xs : List Value) : (set xs).jsonForm leaf =
    list ((xs.mergeSort fun a b => textBefore a.plainText b.plainText).map (jsonForm leaf)) := by
  rw [jsonForm, jsonForms_eq_map, inTextOrder_map]

theorem jsonForm_of_leaf {v : Value} (h : v.isStructure = false) : v.jsonForm leaf = leaf v := by
  cases v <;> first | rfl | cases h

end Form

/-! ### What is written stands for the form -/

/-- Entries and the members written for them come from the texts of the values under their keys. -/
theorem exists_entries {leaf : Value → Except Misuse String} {entries : Entries}
    {members : List String} (h : List.Forall₂ (WritesMember leaf) entries members) :
    ∃ ps : List ((Value × Value) × String), entries = ps.map (·.1) ∧
      members = ps.map (fun p => entry ((keyText? p.1.1).getD "") p.2) ∧
      ∀ p ∈ ps, p.1.2.jsonWith leaf = .ok p.2 := by
  induction h with
  | nil => exact ⟨[], rfl, rfl, List.forall_mem_nil _⟩
  | @cons e m entries members hem _ ih =>
    obtain ⟨key, s, hkey, hs, rfl⟩ := hem
    obtain ⟨ps, rfl, rfl, hps⟩ := ih
    have hall : ∀ p ∈ (e, s) :: ps, p.1.2.jsonWith leaf = .ok p.2 :=
      List.forall_mem_cons.mpr ⟨hs, hps⟩
    -- the key that was written is the one the entry has
    have hmember : entry key s = entry ((keyText? e.1).getD "") s := by
      rw [hkey, Option.getD_some]
    exact ⟨(e, s) :: ps, rfl, by rw [List.map_cons, hmember], hall⟩

/-- What is written for a leaf stands for what `leaf` makes of it. -/
def ReadAs (leaf : Value → Value) (x : Value) : Prop :=
  ∀ s, x.json = .ok s → Denotes s.toList (leaf x)

/-- **What is written for a value stands for its form**, if it does for the leaves within it. -/
theorem denotes_json {leaf : Value → Value} {v : Value} (hleaves : v.AtLeaves (ReadAs leaf))
    {s : String} (h : v.json = .ok s) : Denotes s.toList (v.jsonForm leaf) := by
  induction v using elements_induction generalizing s with
  | h v ih =>
    cases hv : v.isStructure with
    | false =>
      rw [jsonForm_of_leaf leaf hv]
      exact (atLeaves_of_leaf hv).mp hleaves s h
    | true =>
      rw [atLeaves_of_structure hv] at hleaves
      rw [← jsonWith_json] at h
      -- by induction the texts of the elements stand for their forms
      have helement : ∀ x ∈ v.elements, ∀ t, x.jsonWith json = .ok t →
          Denotes t.toList (x.jsonForm leaf) := fun x hx t ht =>
        ih x hx (hleaves x hx) (jsonWith_json x ▸ ht)
      cases v with
      | list xs | tuple xs =>
        obtain ⟨texts, hxs, rfl⟩ := Report.except_map_eq_ok.mp h
        obtain ⟨ps, rfl, rfl, hps⟩ := exists_pairs (jsonItemsWith_eq_ok_iff.mp hxs)
        rw [jsonForm, jsonForms_eq_map, List.map_map]
        exact denotes_array fun p hp => helement p.1 (List.mem_map_of_mem hp) p.2 (hps p hp)
      | set xs | frozenset xs =>
        obtain ⟨texts, hxs, rfl⟩ := Report.except_map_eq_ok.mp h
        obtain ⟨ps, rfl, rfl, hps⟩ := exists_pairs (jsonItemsWith_eq_ok_iff.mp hxs)
        -- the items and their texts are put in the same order
        rw [jsonForm, jsonForms_eq_map, List.map_map, List.map_map, sortedItems_map,
          inTextOrder_map]
        have hvalues : ∀ p ∈ ps.mergeSort fun a b => textBefore a.1.plainText b.1.plainText,
            Denotes p.2.toList (p.1.jsonForm leaf) := fun p hp =>
          helement p.1 (List.mem_map_of_mem (List.mem_mergeSort.mp hp)) p.2
            (hps p (List.mem_mergeSort.mp hp))
        exact denotes_array hvalues
      | map entries =>
        obtain ⟨members, hentries, rfl⟩ := Report.except_map_eq_ok.mp h
        obtain ⟨ps, rfl, rfl, hps⟩ := exists_entries (jsonMembersWith_eq_ok_iff.mp hentries)
        -- the keys are texts already, so only the values have a form of their own
        rw [jsonForm, jsonEntries_eq_map, List.map_map]
        have hvalues : ∀ p ∈ ps, Denotes p.2.toList (p.1.2.jsonForm leaf) := fun p hp =>
          helement p.1.2 (List.mem_map_of_mem (List.mem_map_of_mem hp)) p.2 (hps p hp)
        exact denotes_object hvalues
      | _ => cases hv

end Value

end BoundSql
