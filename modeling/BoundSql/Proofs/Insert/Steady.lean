import BoundSql.Proofs.Insert.Composition
import BoundSql.Proofs.Value.Settled

/-!
# Stored values that do not show the order

The items of a set come in some order, and what is stored for two orders of the same items may
differ. In an array literal the items of a set stand in the order they come in, so the literal shows
it unless all of them have one text. In JSON text they are put in the order of their plain texts,
which hides the order unless items with the same plain text are written in different ways, or the
plain text of an item shows the order of a set within it.

* `Value.stored_eq_literal` — where a collection is bound as an array literal;
* `Value.Reordered.exists_stored` — no order keeps a value from being stored;
* `Value.stored_steady_iff` — the values of which the stored form does not depend on the order.
-/

namespace BoundSql.Value

open Json

section Branches

variable {v w : Value} {arrays : List String} {column : String} {items : List Value}

/-- What has items is a collection in order or a set of them. -/
theorem exists_make_of_collected (h : v.collected? = some items) :
    (∃ make, KeepsOrder make ∧ v = make items) ∨ ∃ make, LacksOrder make ∧ v = make items := by
  cases v with
  | list xs => exact .inl ⟨list, .list, congrArg list (Option.some.inj h)⟩
  | tuple xs => exact .inl ⟨tuple, .tuple, congrArg tuple (Option.some.inj h)⟩
  | set xs => exact .inr ⟨set, .set, congrArg set (Option.some.inj h)⟩
  | frozenset xs => exact .inr ⟨frozenset, .frozenset, congrArg frozenset (Option.some.inj h)⟩
  | _ => cases h

/-- **A collection is bound as an array literal** if its column is one of arrays. -/
theorem stored_eq_literal (hcolumn : column ∈ arrays) (h : v.collected? = some items) :
    v.stored arrays column = .ok (text (ArrayLiteral.ofItems items)) := by
  have hstructure : v.isStructure = true := by
    cases v <;> first | rfl | cases h
  have hcontains : arrays.contains column = true := List.contains_iff_mem.mpr hcolumn
  simp only [stored_structure hstructure, storedText, hcontains, h]

/-- A set of which the items come in the order of their plain texts is bound as they come. -/
theorem stored_unordered_of_pairwise {make : List Value → Value} (hmake : LacksOrder make)
    (hcolumn : column ∉ arrays) (h : items.Pairwise fun x y => x.plainText ≤ y.plainText)
    (texts : List String) (htexts : items.map json = texts.map .ok) :
    (make items).stored arrays column = .ok (text (Json.array texts)) := by
  have hstructure : (make items).isStructure = true := by cases hmake <;> rfl
  rw [stored_eq_json hstructure (.inl hcolumn), json_unordered_of_pairwise hmake h texts htexts]
  rfl

/-- Array literals are the same exactly if the plain texts of their items are. -/
theorem stored_eq_stored_iff {items' : List Value} (hcolumn : column ∈ arrays)
    (h : v.collected? = some items) (h' : w.collected? = some items') :
    w.stored arrays column = v.stored arrays column ↔
      items'.map plainText = items.map plainText := by
  rw [stored_eq_literal hcolumn h, stored_eq_literal hcolumn h']
  constructor
  · exact fun heq => ArrayLiteral.ofTexts_injective (text.inj (Except.ok.inj heq))
  · exact fun heq => by rw [ArrayLiteral.ofItems, ArrayLiteral.ofItems, heq]

/-- Another order leaves the kind of a value as it is. -/
theorem Reordered.kind (h : v.Reordered w) :
    w.isStructure = v.isStructure ∧ (w.collected? = none ↔ v.collected? = none) := by
  cases h <;> simp [isStructure, collected?]

/-- **No order keeps a value from being stored.** -/
theorem Reordered.exists_stored (h : v.Reordered w)
    (hv : ∃ bound, v.stored arrays column = .ok bound) :
    ∃ bound, w.stored arrays column = .ok bound := by
  obtain ⟨hstructure, hcollected⟩ := h.kind
  cases hleaf : v.isStructure with
  | false => rwa [h.eq_of_leaf hleaf]
  | true =>
    rw [hleaf] at hstructure
    -- in every order a value is stored in one way, as JSON text or as an array literal
    by_cases hbranch : column ∉ arrays ∨ v.collected? = none
    · have hbranch' : column ∉ arrays ∨ w.collected? = none := hbranch.imp_right hcollected.mpr
      rw [stored_eq_json hleaf hbranch] at hv
      rw [stored_eq_json hstructure hbranch']
      obtain ⟨bound, hbound⟩ := hv
      obtain ⟨s, hs, -⟩ := Report.except_map_eq_ok.mp hbound
      obtain ⟨s', hs'⟩ := h.exists_json ⟨s, hs⟩
      exact ⟨text s', by rw [hs']; rfl⟩
    · obtain ⟨hcolumn, hitems⟩ := not_or.mp hbranch
      obtain ⟨items, hitems⟩ := Option.ne_none_iff_exists'.mp (mt hcollected.mp hitems)
      exact ⟨_, stored_eq_literal (not_not.mp hcolumn) hitems⟩

theorem map_text_injective {x y : Except Misuse String} (h : x.map text = y.map text) : x = y := by
  cases x <;> cases y <;> simp_all [Except.map]

/-- A structure that is bound as JSON text is stored steadily exactly if this text is steady. -/
theorem stored_steady_iff_json (hstructure : v.isStructure = true)
    (hbranch : column ∉ arrays ∨ v.collected? = none) :
    v.Steady (stored arrays column) ↔ v.Steady json := by
  refine forall₂_congr fun w hw => ?_
  obtain ⟨hstructure', hcollected⟩ := hw.kind
  rw [stored_eq_json hstructure hbranch,
    stored_eq_json (hstructure'.trans hstructure) (hbranch.imp_right hcollected.mpr)]
  exact ⟨map_text_injective, fun heq => by rw [heq]⟩

/-- A collection that is bound as an array literal is stored steadily exactly if the plain texts of
its items are steady and, where these come in no order, all the same. -/
theorem stored_steady_iff_literal (hcolumn : column ∈ arrays) (hitems : v.collected? = some items) :
    v.Steady (stored arrays column) ↔ (∀ x ∈ items, x.Steady plainText) ∧
      (v.isUnordered = true → ∀ x ∈ items, ∀ y ∈ items, x.plainText = y.plainText) := by
  -- the literal shows the items in the order they come in, which only a set has a choice of
  rcases exists_make_of_collected hitems with ⟨make, hmake, rfl⟩ | ⟨make, hmake, rfl⟩
  · have hcollected (ys : List Value) : (make ys).collected? = some ys := by cases hmake <;> rfl
    rw [steady_ordered_iff hmake fun ys => stored_eq_stored_iff hcolumn hitems (hcollected ys)]
    cases hmake <;> exact (and_iff_left fun h => absurd h Bool.false_ne_true).symm
  · have hcollected (ys : List Value) : (make ys).collected? = some ys := by cases hmake <;> rfl
    rw [steady_unordered_iff hmake fun ys => stored_eq_stored_iff hcolumn hitems (hcollected ys)]
    cases hmake <;> exact and_congr_right fun _ => ⟨fun h _ => h, fun h => h rfl⟩

end Branches

/-- **When the order of sets does not show in what is stored.** For a value that is stored at all,
something is stored in whatever order the items of the sets in it come. It is the same in every
order exactly if

* as an array literal, no item has a plain text that shows the order of a set within it, and the
  items of a set all have the same plain text;
* as JSON text, the items of every set within the value keep apart: two that are written in
  different ways have plain texts in one strict order, however the sets in these come.
-/
theorem stored_steady_iff {arrays : List String} {column : String} {v bound : Value}
    (h : v.stored arrays column = .ok bound) :
    (∀ w, v.Reordered w → ∃ bound', w.stored arrays column = .ok bound') ∧
    (∀ items, column ∈ arrays → v.collected? = some items →
      (v.Steady (stored arrays column) ↔ (∀ x ∈ items, x.Steady plainText) ∧
        (v.isUnordered = true → ∀ x ∈ items, ∀ y ∈ items, x.plainText = y.plainText))) ∧
    (column ∉ arrays ∨ v.collected? = none →
      (v.Steady (stored arrays column) ↔ v.Settled)) := by
  refine ⟨fun w hw => hw.exists_stored ⟨bound, h⟩, ?_, ?_⟩
  · exact fun items hcolumn hitems => stored_steady_iff_literal hcolumn hitems
  · intro hbranch
    -- a leaf has no order to show; a structure shows it in its JSON text
    cases hstructure : v.isStructure with
    | false => exact iff_of_true (steady_of_leaf hstructure) (settled_of_leaf hstructure)
    | true =>
      rw [stored_eq_json hstructure hbranch] at h
      obtain ⟨s, hs, -⟩ := Report.except_map_eq_ok.mp h
      rw [stored_steady_iff_json hstructure hbranch, steady_json_iff hs]

/-- A mapping with a set of texts and a number. -/
def petTags : Value := map [(text "tags", frozenset [int 3, text "new", text "old"])]

/-- A number and its digits as a text. -/
def ones : List Value := [int 1, text "1"]

/-- The mapping is stored alike in every order, and the number with its text is in an array literal
but not in JSON text. -/
theorem stored_steady_iff_of_ones :
    petTags.stored ["tags"] "meta" =
      .ok (text "\x7b\"tags\": [3, \"new\", \"old\"]\x7d") ∧
    petTags.Steady (stored ["tags"] "meta") ∧
    (set ones).stored ["tags"] "tags" = .ok (text "\x7b1,1\x7d") ∧
    (set ones).Steady (stored ["tags"] "tags") ∧
    (set ones).stored ["tags"] "meta" = .ok (text "[1, \"1\"]") ∧
    ¬ (set ones).Steady (stored ["tags"] "meta") := by
  have htagsItems : (frozenset [int 3, text "new", text "old"]).json =
      .ok "[3, \"new\", \"old\"]" :=
    json_unordered_of_pairwise .frozenset (by decide) ["3", "\"new\"", "\"old\""] rfl
  have htags : petTags.stored ["tags"] "meta" =
      .ok (text "\x7b\"tags\": [3, \"new\", \"old\"]\x7d") := by
    rw [stored_eq_json rfl (.inr rfl), petTags, json, jsonMembers, htagsItems]
    rfl
  have hliteral : (set ones).stored ["tags"] "tags" = .ok (text "\x7b1,1\x7d") := rfl
  have hones : (set ones).stored ["tags"] "meta" = .ok (text "[1, \"1\"]") :=
    stored_unordered_of_pairwise .set (by simp) (by decide) ["1", "\"1\""] rfl
  have hleaves : ∀ x ∈ ones, x.isStructure = false := by simp [ones, isStructure]
  have hone : (int 1).literal = "1" := rfl
  have hthree : (int 3).literal = "3" := rfl
  -- a number and two texts: no two have the same plain text
  have htagsSteady : petTags.Steady (stored ["tags"] "meta") := by
    refine ((stored_steady_iff htags).2.2 (.inr rfl)).mpr (settled_map_iff.mpr ?_)
    rw [List.forall_mem_singleton, settled_iff_of_leaves .frozenset (by simp [isStructure])]
    simp [plainText, hthree]
  have hliteralSteady : (set ones).Steady (stored ["tags"] "tags") := by
    refine ((stored_steady_iff hliteral).2.1 ones List.mem_cons_self rfl).mpr ⟨?_, fun _ => ?_⟩
    · exact fun x hx => steady_of_leaf (hleaves x hx)
    · simp [ones, plainText, hone]
  -- the number and its text are written in different ways, and nothing sorts them
  have honesUnsteady : ¬ (set ones).Steady (stored ["tags"] "meta") := by
    rw [(stored_steady_iff hones).2.2 (.inl (by simp)), settled_iff_of_leaves .set hleaves]
    have hjson : (int 1).json ≠ (text "1").json := fun heq => absurd (Except.ok.inj heq) (by decide)
    simp [ones, plainText, hone, hjson]
  exact ⟨htags, htagsSteady, hliteral, hliteralSteady, hones, honesUnsteady⟩

/-- **The order of a set shows**: in an array literal that of any items, and in JSON text that of
items with the same plain text. -/
theorem not_steady_of_sizes :
    (set [int 8, int 0]).Reordered (set [int 0, int 8]) ∧
    (set [int 8, int 0]).stored ["tags"] "tags" = .ok (text "\x7b8,0\x7d") ∧
    (set [int 0, int 8]).stored ["tags"] "tags" = .ok (text "\x7b0,8\x7d") ∧
    (set ones).Reordered (set [text "1", int 1]) ∧
    (set ones).stored [] "tags" = .ok (text "[1, \"1\"]") ∧
    (set [text "1", int 1]).stored [] "tags" = .ok (text "[\"1\", 1]") ∧
    ¬ ∀ arrays column v w, Reordered v w → w.stored arrays column = v.stored arrays column := by
  have hswap (x y : Value) : (set [x, y]).Reordered (set [y, x]) :=
    (reordered_unordered_iff .set).mpr
      ⟨_, _, forall₂_reordered_self _, List.Perm.swap _ _ [], rfl⟩
  have hones : (set ones).stored [] "tags" = .ok (text "[1, \"1\"]") :=
    stored_unordered_of_pairwise .set (by simp) (by decide) ["1", "\"1\""] rfl
  have hback : (set [text "1", int 1]).stored [] "tags" = .ok (text "[\"1\", 1]") :=
    stored_unordered_of_pairwise .set (by simp) (by decide) ["\"1\"", "1"] rfl
  -- the array literal shows the swap of the two numbers
  refine ⟨hswap _ _, rfl, rfl, hswap _ _, hones, hback, fun hsame => ?_⟩
  have heq : "\x7b0,8\x7d" = "\x7b8,0\x7d" :=
    text.inj (Except.ok.inj (hsame ["tags"] "tags" _ _ (hswap (int 8) (int 0))))
  exact absurd heq (by decide)

end BoundSql.Value
