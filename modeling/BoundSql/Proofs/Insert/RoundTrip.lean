import BoundSql.Proofs.Insert.Structured
import BoundSql.Proofs.Json.Written

/-!
# Structures read back

A structure of texts, whole numbers, truth values and nothing is bound as JSON text that stands for
it. Only the kinds of its collections are lost: every one of them is a list when the text is read,
and a set is the list of its items in the order of their plain texts. So structures that differ in
anything else are bound as different texts.

* `Value.read?_json` — what is read back from what is written;
* `Value.stored_round_trip` — what is read back from what is bound.
-/

namespace BoundSql.Value

open Json

/-- Such a leaf is written, and read as itself. -/
theorem IsDatum.exists_json {x : Value} (h : x.IsDatum) :
    ∃ s, x.json = .ok s ∧ Denotes s.toList x := by
  cases h with
  | null => exact ⟨_, rfl, denotes_null⟩
  | bool b => exact ⟨_, rfl, denotes_bool b⟩
  | int n => exact ⟨_, rfl, denotes_int n⟩
  | text s => exact ⟨_, rfl, .string (isString_string s)⟩

theorem IsDatum.readAs {x : Value} (h : x.IsDatum) : x.ReadAs id := by
  intro s hs
  obtain ⟨t, ht, hdenotes⟩ := h.exists_json
  obtain rfl : t = s := Except.ok.inj (ht.symm.trans hs)
  exact hdenotes

/-- **What is written is read back** in the form that JSON has of it. -/
theorem read?_json {v : Value} (hv : v.BuiltOf IsDatum) {s : String} (h : v.json = .ok s) :
    read? s = some (v.jsonForm id) := by
  have hleaves : v.AtLeaves (ReadAs id) := fun x hx hleaf => (hv.atLeaves x hx hleaf).readAs
  have hdenotes := denotes_json hleaves h
  exact read?_eq_some_iff.mpr (.mk hdenotes isGap_nil isGap_nil (List.append_nil _).symm)

/-- **What is bound for a structure is read back.** For every structure that is built of texts,
whole numbers, truth values and nothing, to any depth, and is not bound as an array literal:

* a text is bound, and a reader of JSON reads it as the structure with lists for all collections,
  each set in the order of the plain texts of its items, and with the entries of each mapping in
  their order;
* for any other such structure the same text is bound only if it is read back as the same.
-/
theorem stored_round_trip {arrays : List String} {column : String} {v : Value}
    (hv : v.BuiltOf IsDatum) (hstructure : v.isStructure = true)
    (hbranch : column ∉ arrays ∨ v.collected? = none) :
    ∃ s, v.stored arrays column = .ok (text s) ∧ read? s = some (v.jsonForm id) ∧
      ∀ (arrays' : List String) (column' : String) (w : Value), w.BuiltOf IsDatum →
        w.isStructure = true → (column' ∉ arrays' ∨ w.collected? = none) →
        w.stored arrays' column' = .ok (text s) → w.jsonForm id = v.jsonForm id := by
  obtain ⟨s, hs⟩ := hv.exists_json fun x hx =>
    let ⟨s, hs, _⟩ := hx.exists_json
    ⟨s, hs⟩
  refine ⟨s, ?_, read?_json hv hs, fun arrays' column' w hw hstructure' hbranch' hstored => ?_⟩
  · rw [stored_eq_json hstructure hbranch, hs]
    rfl
  · -- both structures are read from the one text
    rw [stored_eq_json hstructure' hbranch'] at hstored
    obtain ⟨t, ht, hsame⟩ := Report.except_map_eq_ok.mp hstored
    obtain rfl : t = s := text.inj hsame
    exact Option.some.inj ((read?_json hw ht).symm.trans (read?_json hv hs))

/-- A mapping with a set, a tuple and texts that have to be escaped. -/
def petData : Value :=
  map [(text "labels", set [text "b", text "a"]),
    (text "sizes", tuple [int 10, int (-9), bool true, null]),
    (text "na\"me", text "Zoë 🐈\n")]

/-- The mapping is read back with lists for the set and the tuple. -/
theorem stored_round_trip_of_petData :
    ∃ s, petData.stored ["labels"] "meta" = .ok (text s) ∧
      read? s = some (map [(text "labels", list [text "a", text "b"]),
        (text "sizes", list [int 10, int (-9), bool true, null]),
        (text "na\"me", text "Zoë 🐈\n")]) := by
  have htext (s : String) : (text s).BuiltOf IsDatum := .leaf rfl (.text s)
  have hlabels : (set [text "b", text "a"]).BuiltOf IsDatum :=
    .set (List.forall_mem_cons.mpr ⟨htext _, List.forall_mem_singleton.mpr (htext _)⟩)
  have hsizes : (tuple [int 10, int (-9), bool true, null]).BuiltOf IsDatum := by
    refine .tuple fun x hx => ?_
    simp only [List.mem_cons, List.not_mem_nil, or_false] at hx
    rcases hx with rfl | rfl | rfl | rfl <;> exact .leaf rfl (by constructor)
  -- three entries: each has a text for a key, and a value that is built of data
  have hdata : petData.BuiltOf IsDatum := by
    refine .map (fun e he => ?_) fun e he => ?_
    all_goals
      simp only [List.mem_cons, List.not_mem_nil, or_false] at he
      rcases he with rfl | rfl | rfl
    · exact ⟨_, rfl⟩
    · exact ⟨_, rfl⟩
    · exact ⟨_, rfl⟩
    · exact hlabels
    · exact hsizes
    · exact htext _
  obtain ⟨s, hs, hread, -⟩ := @stored_round_trip ["labels"] "meta" _ hdata rfl (.inr rfl)
  have hbefore : textBefore "b" "a" = false := by decide
  -- the set comes back as a list in the order of its texts
  have hset : (set [text "b", text "a"]).jsonForm id = list [text "a", text "b"] := by
    rw [jsonForm_set]
    simp [List.mergeSort, List.MergeSort.Internal.splitInTwo, hbefore, plainText, jsonForm]
  have hform : petData.jsonForm id =
      map [(text "labels", (set [text "b", text "a"]).jsonForm id),
        (text "sizes", list [int 10, int (-9), bool true, null]),
        (text "na\"me", text "Zoë 🐈\n")] := rfl
  exact ⟨s, hs, by rw [hread, hform, hset]⟩

end BoundSql.Value
