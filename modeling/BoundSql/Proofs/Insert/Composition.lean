import BoundSql.Proofs.Insert.ArrayPieces
import BoundSql.Proofs.Insert.Structured

/-!
# Elements stored as they are alone

A member alone is stored as its value, and a record as the JSON text of its dump. As elements of a
structure they are written by other rules: a member that is neither text nor number by its name, a
record by its plain text, and in an array literal every member by its name.

So a structure is stored element by element as these are stored alone only if it makes no difference
for any of them: if it has no records, however deep, and every member has a value that spells the
name of the member. The rules are compared leaf by leaf, since a JSON text and an array literal are
known from their parts.

* `alone`, `composed` — what would be stored if every element were stored as it is alone;
* `alone_eq_json_iff` — which leaves are stored alike alone and in a structure;
* `composed_eq_ok_iff` — which structures are.
-/

namespace BoundSql

open Json

/-- The texts of an array literal are known from it. -/
theorem ArrayLiteral.ofTexts_injective {texts texts' : List String}
    (h : ofTexts texts = ofTexts texts') : texts = texts' := by
  rw [← decode_ofItems texts, ofItems_map_text, h, ← ofItems_map_text, decode_ofItems]

namespace Value

/-! ### Elements alone -/

/-- **The JSON text of an element that is stored as it is alone**: what is bound for a scalar or a
member, as JSON, and the text that is bound for anything else, as it is. -/
def alone (x : Value) : Except Misuse String :=
  (x.stored [] "").bind fun bound => match x with
    | member _ _ _ _ => bound.json
    | x => if x.isScalar then bound.json else .ok bound.plainText

/-- The text of an item of an array literal where a member is its value, as it is alone. -/
def aloneText : Value → String
  | member _ _ _ value => value.plainText
  | x => x.plainText

/-- **What would be bound for a structure** if every element, in an array literal every member, were
stored as it is alone. -/
def composed (arrays : List String) (column : String) (v : Value) : Except Misuse Value :=
  match arrays.contains column, v.collected? with
  | true, some items => .ok (text (ArrayLiteral.ofTexts (items.map aloneText)))
  | _, _ => (v.jsonWith alone).map text

/-- A member has a scalar as its value, and a text or a number if it is built on one. -/
def IsSound : Value → Prop
  | member _ .plain _ value => value.isScalar = true
  | member _ .text _ value => ∃ s, value = text s
  | member _ .integer _ value => ∃ n, value = int n
  | _ => True

/-- The text that a scalar is in JSON, if it is a string there. -/
def jsonText? : Value → Option String
  | null | bool _ | int _ | float _ => none
  | v => some v.plainText

/-- **An element that is stored alike** alone and in a structure: no record, and no member whose
value does not spell its name, unless it is a text or a number itself. -/
def IsAlike : Value → Prop
  | member type .plain name value => value.jsonText? = some (type ++ "." ++ name)
  | record _ _ => False
  | _ => True

/-- An item that is stored alike alone and in an array literal: no member whose value does not spell
its name. -/
def IsAlikeText : Value → Prop
  | member type _ name value => value.plainText = type ++ "." ++ name
  | _ => True

theorem json_eq_string_iff {v : Value} (h : v.isScalar = true) {t : String} :
    v.json = .ok (Json.string t) ↔ v.jsonText? = some t := by
  -- a word or a number is written without quotes, so it is no string
  have hword : ∀ {w : String}, Plain w →
      ((.ok w : Except Misuse String) = .ok (Json.string t) ↔ (none : Option String) = some t) := by
    intro w hw
    refine iff_of_false (fun heq => ?_) nofun
    rw [Except.ok.inj heq] at hw
    exact not_plain_string t hw
  -- two texts with one JSON string are the same
  have hstring : ∀ {s : String},
      ((.ok (Json.string s) : Except Misuse String) = .ok (Json.string t) ↔ some s = some t) := by
    intro s
    exact ⟨fun heq => congrArg some (string_injective (Except.ok.inj heq)),
      fun heq => by rw [Option.some.inj heq]⟩
  cases v with
  | null => exact hword (by decide)
  | bool b => exact hword (by cases b <;> decide)
  | int n => exact hword (plain_int n)
  | float f => exact hword (plain_float f)
  | list xs | tuple xs | set xs | frozenset xs | map es | unset | member _ _ _ _ | record _ _ =>
    cases h
  | _ => exact hstring

/-- A record alone is the JSON text of its dump. -/
theorem alone_record (type : String) (fields : List (String × Value)) :
    (record type fields).alone = (record type fields).dump.bind json := by
  show (((record type fields).dump.bind json).map text).bind (fun bound => .ok bound.plainText) = _
  cases (record type fields).dump.bind json with
  | error m => rfl
  | ok s => rfl

/-- So it is an object, if it is anything. -/
theorem alone_record_ne (type : String) (fields : List (String × Value)) (t : String) :
    (record type fields).alone ≠ .ok (Json.string t) := by
  intro h
  rw [alone_record] at h
  have hdump : (record type fields).dump = (dumpFields 1 type fields).map map := rfl
  cases hfields : dumpFields 1 type fields with
  | error m =>
    rw [hdump, hfields] at h
    cases h
  | ok entries =>
    rw [hdump, hfields] at h
    obtain ⟨members, -, hobject⟩ := Report.except_map_eq_ok.mp h
    exact object_ne_string members t hobject

/-- **Which leaves are stored alike** alone and in a structure. -/
theorem alone_eq_json_iff {x : Value} (hleaf : x.isStructure = false) (hsound : x.IsSound) :
    x.alone = x.json ↔ x.IsAlike := by
  cases x with
  | member type base name value =>
    -- a member that is a text or a number itself is written by its value in either case
    cases base with
    | plain => exact json_eq_string_iff hsound
    | text =>
      obtain ⟨s, rfl⟩ := hsound
      exact iff_of_true rfl trivial
    | integer =>
      obtain ⟨n, rfl⟩ := hsound
      exact iff_of_true rfl trivial
  | record type fields => exact iff_of_false (alone_record_ne type fields _) id
  | list xs | tuple xs | set xs | frozenset xs | map es => cases hleaf
  | _ => exact iff_of_true rfl trivial

theorem writesTexts_alone : WritesTexts alone := by
  intro x s hx h
  cases x with
  | member type base name value => exact isText_json h
  | record type fields =>
    -- a record is dumped first, which may fail
    rw [alone_record] at h
    cases hdump : (record type fields).dump with
    | error m =>
      rw [hdump] at h
      cases h
    | ok dumped =>
      rw [hdump] at h
      exact isText_json h
  | list xs | tuple xs | set xs | frozenset xs | map es => cases hx
  | unset =>
    obtain rfl := Except.ok.inj h
    exact .string _
  | _ => exact writesTexts_json _ s rfl h

/-- **Which structures are written alike** in JSON: those with leaves that all are. -/
theorem jsonWith_alone_eq_ok_iff {v : Value} (hsound : v.AtLeaves IsSound) {s : String}
    (h : v.json = .ok s) : v.jsonWith alone = .ok s ↔ v.AtLeaves IsAlike := by
  rw [jsonWith_eq_ok_iff writesTexts_json writesTexts_alone ((jsonWith_json v).trans h)]
  constructor
  · exact fun hsame x hx hleaf =>
      (alone_eq_json_iff hleaf (hsound x hx hleaf)).mp (hsame x hx hleaf)
  · exact fun halike x hx hleaf =>
      (alone_eq_json_iff hleaf (hsound x hx hleaf)).mpr (halike x hx hleaf)

/-- Which items are written alike in an array literal. -/
theorem aloneText_eq_iff (x : Value) : x.aloneText = x.plainText ↔ x.IsAlikeText := by
  cases x with
  | member type base name value => exact Iff.rfl
  | _ => exact iff_of_true rfl trivial

/-- **Which literals are written alike**: those of items that all are. -/
theorem ofTexts_aloneText_eq_iff (items : List Value) :
    ArrayLiteral.ofTexts (items.map aloneText) = ArrayLiteral.ofItems items ↔
      ∀ x ∈ items, x.IsAlikeText := by
  rw [ArrayLiteral.ofItems]
  constructor
  · intro heq x hx
    have htexts := List.map_inj_left.mp (ArrayLiteral.ofTexts_injective heq)
    exact (aloneText_eq_iff x).mp (htexts x hx)
  · intro halike
    rw [List.map_congr_left fun x hx => (aloneText_eq_iff x).mpr (halike x hx)]

/-- **Which structures are stored as if every element were stored as it is alone.** Of a structure
whose members are sound:

* as an array literal, those of which every item that is a member has a value that spells the name
  of the member;
* as JSON text, those that have no record within them, at any depth, and of which every member is a
  text or a number itself, or has a value that is a string in JSON and spells the name.
-/
theorem composed_eq_ok_iff {arrays : List String} {column : String} {v bound : Value}
    (hstructure : v.isStructure = true) (hsound : v.AtLeaves IsSound)
    (h : v.stored arrays column = .ok bound) :
    (∀ items, column ∈ arrays → v.collected? = some items →
      (v.composed arrays column = .ok bound ↔ ∀ x ∈ items, x.IsAlikeText)) ∧
    (column ∉ arrays ∨ v.collected? = none →
      (v.composed arrays column = .ok bound ↔ v.AtLeaves IsAlike)) := by
  constructor
  · -- an array literal is compared by its texts
    intro items hcolumn hitems
    have hcontains : arrays.contains column = true := List.contains_iff_mem.mpr hcolumn
    rw [stored_structure hstructure] at h
    simp only [storedText, composed, hcontains, hitems] at h ⊢
    rw [← ofTexts_aloneText_eq_iff, ← Except.ok.inj h]
    constructor
    · exact fun heq => text.inj (Except.ok.inj heq)
    · exact fun heq => by rw [heq]
  · -- and JSON text by the leaves within it
    intro hbranch
    have hcomposed : v.composed arrays column = (v.jsonWith alone).map text := by
      unfold composed
      split
      · rename_i items hcontains hitems
        exact absurd hitems (not_literal hbranch (List.contains_iff_mem.mp hcontains))
      · rfl
    rw [stored_eq_json hstructure hbranch] at h
    obtain ⟨s, hs, rfl⟩ := Report.except_map_eq_ok.mp h
    rw [hcomposed, ← jsonWith_alone_eq_ok_iff hsound hs, Report.except_map_eq_ok]
    constructor
    · rintro ⟨s', hs', heq⟩
      rw [hs', text.inj heq]
    · exact fun hs' => ⟨s, hs', rfl⟩

/-- A mapping of members that are stored alike: one that is a text, one that is a number, and one
whose value spells its name. -/
def alikeMembers : Value :=
  map [(text "colours", tuple [member "Colour" .text "BROWN" (text "brown"), null]),
    (text "count", member "Count" .integer "ONE" (int 1)),
    (text "sizes", list [member "Size" .plain "S" (text "Size.S")])]

/-- The same members in an array literal, where only the last is stored alike. -/
def listedMembers : List Value :=
  [member "Colour" .text "BROWN" (text "brown"), member "Size" .plain "S" (text "Size.S")]

/-- The mapping is stored as if each of its elements were stored alone, and the list is not. -/
theorem composed_eq_ok_iff_of_members :
    alikeMembers.isStructure = true ∧ alikeMembers.AtLeaves IsSound ∧
    alikeMembers.stored [] "meta" = .ok (text
      "\x7b\"colours\": [\"brown\", null], \"count\": 1, \"sizes\": [\"Size.S\"]\x7d") ∧
    alikeMembers.composed [] "meta" = .ok (text
      "\x7b\"colours\": [\"brown\", null], \"count\": 1, \"sizes\": [\"Size.S\"]\x7d") ∧
    (list listedMembers).stored ["tags"] "tags" = .ok (text "\x7bColour.BROWN,Size.S\x7d") ∧
    (list listedMembers).composed ["tags"] "tags" ≠ .ok (text "\x7bColour.BROWN,Size.S\x7d") := by
  have hstored : alikeMembers.stored [] "meta" = .ok (text
      "\x7b\"colours\": [\"brown\", null], \"count\": 1, \"sizes\": [\"Size.S\"]\x7d") := by
    rfl
  have hlisted : (list listedMembers).stored ["tags"] "tags" =
      .ok (text "\x7bColour.BROWN,Size.S\x7d") := by
    rfl
  -- each of the four leaves, and through the lists they stand in
  have hleaves {P : Value → Prop} (hcolour : P (member "Colour" .text "BROWN" (text "brown")))
      (hnull : P null) (hcount : P (member "Count" .integer "ONE" (int 1)))
      (hsize : P (member "Size" .plain "S" (text "Size.S"))) : alikeMembers.AtLeaves P := by
    refine (atLeaves_of_structure rfl).mpr (List.forall_mem_cons.mpr ⟨?_,
      List.forall_mem_cons.mpr ⟨(atLeaves_of_leaf rfl).mpr hcount,
        List.forall_mem_singleton.mpr ?_⟩⟩)
    · exact (atLeaves_of_structure rfl).mpr (List.forall_mem_cons.mpr
        ⟨(atLeaves_of_leaf rfl).mpr hcolour,
          List.forall_mem_singleton.mpr ((atLeaves_of_leaf rfl).mpr hnull)⟩)
    · exact (atLeaves_of_structure rfl).mpr
        (List.forall_mem_singleton.mpr ((atLeaves_of_leaf rfl).mpr hsize))
  have hsound : alikeMembers.AtLeaves IsSound := hleaves ⟨_, rfl⟩ trivial ⟨_, rfl⟩ rfl
  have hlistedSound : (list listedMembers).AtLeaves IsSound :=
    (atLeaves_of_structure rfl).mpr (List.forall_mem_cons.mpr
      ⟨(atLeaves_of_leaf rfl).mpr ⟨_, rfl⟩,
        List.forall_mem_singleton.mpr ((atLeaves_of_leaf rfl).mpr rfl)⟩)
  obtain ⟨-, hjson⟩ := composed_eq_ok_iff rfl hsound hstored
  obtain ⟨hliteral, -⟩ := composed_eq_ok_iff rfl hlistedSound hlisted
  refine ⟨rfl, hsound, hstored, (hjson (.inr rfl)).mpr ?_, hlisted, fun heq => ?_⟩
  · exact hleaves trivial trivial trivial rfl
  · -- in the literal the member of a text enumeration has its name and not its value
    have halike : "brown" = "Colour" ++ "." ++ "BROWN" :=
      (hliteral _ List.mem_cons_self rfl).mp heq _ List.mem_cons_self
    exact absurd halike (by decide)

/-- **Elements are not stored as they are alone**: a plain member by its name, a record as its plain
text, and in an array literal a member of any kind by its name. -/
theorem not_composed_of_elements :
    (list [member "Colour" .plain "BROWN" (text "brown")]).stored [] "meta" =
      .ok (text "[\"Colour.BROWN\"]") ∧
    (list [member "Colour" .plain "BROWN" (text "brown")]).composed [] "meta" =
      .ok (text "[\"brown\"]") ∧
    (map [(text "box", record "Box" [("value", int 1)])]).stored [] "meta" =
      .ok (text "\x7b\"box\": \"value=1\"\x7d") ∧
    (map [(text "box", record "Box" [("value", int 1)])]).composed [] "meta" =
      .ok (text "\x7b\"box\": \x7b\"value\": 1\x7d\x7d") ∧
    (set [member "Colour" .text "BROWN" (text "brown")]).stored ["tags"] "tags" =
      .ok (text "\x7bColour.BROWN\x7d") ∧
    (set [member "Colour" .text "BROWN" (text "brown")]).composed ["tags"] "tags" =
      .ok (text "\x7bbrown\x7d") :=
  ⟨rfl, rfl, rfl, rfl, rfl, rfl⟩

end Value

end BoundSql
