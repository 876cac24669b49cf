import BoundSql.Proofs.Value.Reordered

/-!
# JSON texts that do not show the order

The JSON text of a value does not show the order in which the items of sets come if none of the sets
within the value shows it, each by itself. And a set does not show it exactly if its items keep
apart: any two of them are written alike, or have plain texts that are in the same strict order
however the sets in these come.

A JSON text is put together of those of its parts and known from them (`MadeOf`), so the order shows
in the text exactly if it shows in the parts.

* `Value.Reordered.exists_json` — no order keeps a value from being written;
* `Value.settled_iff_of_leaves` — sets of scalars;
* `Value.steady_json_iff` — the values whose JSON text does not depend on the order.
-/

namespace BoundSql

open Json

namespace Value

/-! ### Texts put together of parts -/

section Results

variable {α β ε : Type _} {xs : List α}

/-- All results are there exactly if each of them is. -/
theorem exists_map_ok_iff {f : α → Except ε β} :
    (∃ items : List β, xs.map f = items.map .ok) ↔ ∀ x ∈ xs, ∃ s, f x = .ok s := by
  constructor
  · rintro ⟨items, h⟩ x hx
    have hmem : f x ∈ items.map Except.ok := h ▸ List.mem_map_of_mem hx
    obtain ⟨s, -, hs⟩ := List.mem_map.mp hmem
    exact ⟨s, hs.symm⟩
  · intro h
    obtain ⟨items, hitems⟩ := exists_forall₂ h
    obtain ⟨ps, rfl, rfl, hps⟩ := exists_pairs hitems
    refine ⟨ps.map (·.2), ?_⟩
    rw [List.map_map, List.map_map]
    exact List.map_congr_left hps

theorem map_ok_injective {items items' : List β}
    (h : items.map (Except.ok : β → Except ε β) = items'.map Except.ok) : items = items' :=
  List.map_injective_iff.mpr (fun _ _ h => Except.ok.inj h) h

end Results

/-- **A text put together of parts**: it is what `put` makes of theirs, once each of them has
one. -/
structure MadeOf (put : List String → String) (IsPart : String → Prop)
    (parts : List (Except Misuse String)) (whole : Except Misuse String) : Prop where
  eq_ok_iff : ∀ s, whole = .ok s ↔ ∃ items : List String, parts = items.map .ok ∧ put items = s
  isPart : ∀ items : List String, parts = items.map .ok → ∀ s ∈ items, IsPart s

section MadeOf

variable {put : List String → String} {IsPart : String → Prop}
  {parts parts' : List (Except Misuse String)} {whole whole' : Except Misuse String}

theorem MadeOf.exists_iff {α : Type} {f : α → Except Misuse String} {as : List α}
    (h : MadeOf put IsPart (as.map f) whole) :
    (∃ s, whole = .ok s) ↔ ∀ a ∈ as, ∃ s, f a = .ok s := by
  rw [← exists_map_ok_iff]
  constructor
  · rintro ⟨s, hs⟩
    obtain ⟨items, hitems, -⟩ := (h.eq_ok_iff s).mp hs
    exact ⟨items, hitems⟩
  · rintro ⟨items, hitems⟩
    exact ⟨put items, (h.eq_ok_iff _).mpr ⟨items, hitems, rfl⟩⟩

/-- Texts are the same exactly if their parts are, where the parts are known from the text. -/
theorem MadeOf.eq_iff (h : MadeOf put IsPart parts whole) (h' : MadeOf put IsPart parts' whole')
    (hknown : ∀ {items items' : List String}, (∀ s ∈ items, IsPart s) → (∀ s ∈ items', IsPart s) →
      put items = put items' → items = items') {s : String} (hs : whole = .ok s) :
    whole' = whole ↔ parts' = parts := by
  obtain ⟨items, hitems, rfl⟩ := (h.eq_ok_iff s).mp hs
  rw [hs, h'.eq_ok_iff]
  constructor
  · rintro ⟨items', hitems', heq⟩
    rw [hitems, hitems', hknown (h'.isPart _ hitems') (h.isPart _ hitems) heq]
  · exact fun hparts => ⟨items, hparts.trans hitems, rfl⟩

end MadeOf

/-! ### JSON texts and their parts -/

section Written

variable {xs : List Value} {es : Entries} {make : List Value → Value}

theorem jsonItemsWith_json_eq_ok_iff {items : List String} :
    jsonItemsWith json xs = .ok items ↔ xs.map json = items.map .ok := by
  rw [jsonItemsWith_eq_ok_iff, ← List.forall₂_eq_eq_eq, List.forall₂_map_left_iff,
    List.forall₂_map_right_iff]
  simp only [jsonWith_json]

theorem isText_of_map_json {items : List String} (h : xs.map json = items.map .ok) :
    ∀ s ∈ items, IsText s := by
  intro s hs
  have hmem : Except.ok s ∈ xs.map json := h ▸ List.mem_map_of_mem hs
  obtain ⟨x, -, hx⟩ := List.mem_map.mp hmem
  exact isText_json hx

/-- A collection in order is an array of its items. -/
theorem madeOf_ordered (hmake : KeepsOrder make) (xs : List Value) :
    MadeOf Json.array IsText (xs.map json) (make xs).json where
  eq_ok_iff s := by
    simp only [← jsonItemsWith_json_eq_ok_iff]
    cases hmake <;> rw [← jsonWith_json, jsonWith, Report.except_map_eq_ok]
  isPart _ := isText_of_map_json

/-- A set is an array of its items in the order of their plain texts. -/
theorem madeOf_unordered (hmake : LacksOrder make) (xs : List Value) :
    MadeOf Json.array IsText ((arranged plainText xs).map json) (make xs).json where
  eq_ok_iff s := by
    -- sorting the items and then writing them is writing them and then sorting the texts
    have hsorted {items : List String} (h : xs.map json = items.map .ok) :
        (arranged plainText xs).map json = (sortedItems (xs.map plainText) items).map .ok :=
      calc (arranged plainText xs).map json
        _ = inTextOrder (xs.map plainText) (xs.map json) := (inTextOrder_map _ _ _).symm
        _ = inTextOrder (xs.map plainText) (items.map .ok) := by rw [h]
        _ = (inTextOrder (xs.map plainText) items).map .ok := inTextOrder_map_items _ _ _
    have hjson : (make xs).json = .ok s ↔
        ∃ items : List String, xs.map json = items.map .ok ∧
          Json.array (sortedItems (xs.map plainText) items) = s := by
      simp only [← jsonItemsWith_json_eq_ok_iff]
      cases hmake <;> rw [← jsonWith_json, jsonWith, Report.except_map_eq_ok]
    rw [hjson]
    constructor
    · rintro ⟨items, hitems, rfl⟩
      exact ⟨_, hsorted hitems, rfl⟩
    · rintro ⟨sorted, hwritten, rfl⟩
      -- all items have texts, and these in order are the texts in order
      have hexists := exists_map_ok_iff.mp ⟨sorted, hwritten⟩
      obtain ⟨items, hitems⟩ := exists_map_ok_iff.mpr fun x hx =>
        hexists x ((arranged_perm plainText xs).mem_iff.mpr hx)
      have hsame := map_ok_injective (hwritten.symm.trans (hsorted hitems))
      exact ⟨items, hitems, by rw [hsame]⟩
  isPart _ := isText_of_map_json

/-- A set of which the items come in this order is written as they come. -/
theorem json_unordered_of_pairwise (hmake : LacksOrder make)
    (h : xs.Pairwise fun x y => x.plainText ≤ y.plainText) (items : List String)
    (hitems : xs.map json = items.map .ok) : (make xs).json = .ok (Json.array items) := by
  refine ((madeOf_unordered hmake xs).eq_ok_iff _).mpr ⟨items, ?_, rfl⟩
  rw [arranged_of_pairwise h, hitems]

theorem exists_json_unordered_iff (hmake : LacksOrder make) :
    (∃ s, (make xs).json = .ok s) ↔ ∀ x ∈ xs, ∃ s, x.json = .ok s := by
  rw [(madeOf_unordered hmake xs).exists_iff]
  simp only [(arranged_perm plainText xs).mem_iff]

/-- The text of an entry: that of its value behind the text of its key. -/
def memberJson (e : Value × Value) : Except Misuse String :=
  match keyText? e.1 with
  | none => .error (.keyNotEncodable e.1.qualifiedTypeName)
  | some key => e.2.json.map (entry key)

theorem memberJson_eq_ok_iff {e : Value × Value} {m : String} :
    memberJson e = .ok m ↔ WritesMember json e m := by
  unfold memberJson WritesMember
  cases hkey : keyText? e.1 with
  | none => simp
  | some key => simp [Report.except_map_eq_ok, jsonWith_json]

/-- A mapping is an object of its entries. -/
theorem madeOf_map (es : Entries) :
    MadeOf Json.object IsMember (es.map memberJson) (map es).json where
  eq_ok_iff s := by
    -- the members are what the entries are written as, one by one
    have hmembers {members : List String} :
        jsonMembersWith json es = .ok members ↔ es.map memberJson = members.map .ok := by
      rw [jsonMembersWith_eq_ok_iff, ← List.forall₂_eq_eq_eq, List.forall₂_map_left_iff,
        List.forall₂_map_right_iff]
      simp only [memberJson_eq_ok_iff]
    simp only [← hmembers]
    rw [← jsonWith_json, jsonWith, Report.except_map_eq_ok]
  isPart members h m hm := by
    have hmem : Except.ok m ∈ es.map memberJson := h ▸ List.mem_map_of_mem hm
    obtain ⟨e, -, he⟩ := List.mem_map.mp hmem
    obtain ⟨key, s, -, hs, rfl⟩ := memberJson_eq_ok_iff.mp he
    exact ⟨key, s, isText_json ((jsonWith_json e.2).symm.trans hs), rfl⟩

end Written

/-! ### The order and the text -/

/-- A key has one text in every order. -/
theorem Reordered.keyText? {k k' : Value} (h : k.Reordered k') : keyText? k' = keyText? k := by
  cases h <;> rfl

theorem exists_memberJson_iff {e : Value × Value} :
    (∃ m, memberJson e = .ok m) ↔ (∃ key, keyText? e.1 = some key) ∧ ∃ s, e.2.json = .ok s := by
  simp only [memberJson_eq_ok_iff, WritesMember, jsonWith_json]
  constructor
  · rintro ⟨_, key, s, hkey, hs, rfl⟩
    exact ⟨⟨key, hkey⟩, s, hs⟩
  · rintro ⟨⟨key, hkey⟩, s, hs⟩
    exact ⟨_, key, s, hkey, hs, rfl⟩

/-- **No order keeps a value from being written.** -/
theorem Reordered.exists_json {v w : Value} (h : v.Reordered w) (hv : ∃ s, v.json = .ok s) :
    ∃ s, w.json = .ok s := by
  induction h with
  | same => exact hv
  | list _ ih =>
    rw [(madeOf_ordered .list _).exists_iff, List.forall_mem_map] at hv ⊢
    exact fun p hp => ih p hp (hv p hp)
  | tuple _ ih =>
    rw [(madeOf_ordered .tuple _).exists_iff, List.forall_mem_map] at hv ⊢
    exact fun p hp => ih p hp (hv p hp)
  -- that each item of a set can be written is no matter of their order
  | set _ hperm ih =>
    rw [exists_json_unordered_iff .set] at hv ⊢
    intro y hy
    obtain ⟨p, hp, rfl⟩ := List.mem_map.mp (hperm.mem_iff.mp hy)
    exact ih p hp (hv p.1 (List.mem_map_of_mem hp))
  | frozenset _ hperm ih =>
    rw [exists_json_unordered_iff .frozenset] at hv ⊢
    intro y hy
    obtain ⟨p, hp, rfl⟩ := List.mem_map.mp (hperm.mem_iff.mp hy)
    exact ih p hp (hv p.1 (List.mem_map_of_mem hp))
  | map hkeys _ _ ih =>
    -- the keys are the same texts
    rw [(madeOf_map _).exists_iff, List.forall_mem_map] at hv ⊢
    intro p hp
    obtain ⟨⟨key, hkey⟩, hjson⟩ := exists_memberJson_iff.mp (hv p hp)
    exact exists_memberJson_iff.mpr ⟨⟨key, (hkeys p hp).keyText?.trans hkey⟩, ih p hp hjson⟩

/-- What is written for a value is written for its elements. -/
theorem exists_json_of_mem_elements {v y : Value} (hy : y ∈ v.elements) (h : ∃ s, v.json = .ok s) :
    ∃ s, y.json = .ok s := by
  cases v with
  | list xs => exact (madeOf_ordered .list xs).exists_iff.mp h y hy
  | tuple xs => exact (madeOf_ordered .tuple xs).exists_iff.mp h y hy
  | set xs => exact (exists_json_unordered_iff .set).mp h y hy
  | frozenset xs => exact (exists_json_unordered_iff .frozenset).mp h y hy
  | map es =>
    obtain ⟨e, he, rfl⟩ := List.mem_map.mp hy
    exact (exists_memberJson_iff.mp ((madeOf_map es).exists_iff.mp h e he)).2
  | _ => cases hy

section Json

variable {xs : List Value} {make : List Value → Value} {s : String}

theorem steady_json_ordered_iff (hmake : KeepsOrder make) (h : (make xs).json = .ok s) :
    (make xs).Steady json ↔ ∀ x ∈ xs, x.Steady json :=
  steady_ordered_iff hmake fun ys =>
    (madeOf_ordered hmake xs).eq_iff (madeOf_ordered hmake ys) array_injective h

theorem steady_json_unordered_iff (hmake : LacksOrder make) (h : (make xs).json = .ok s) :
    (make xs).Steady json ↔
      (∀ x ∈ xs, x.Steady json) ∧ xs.Pairwise (Apart Reordered plainText json) :=
  steady_arranged_iff hmake fun ys =>
    (madeOf_unordered hmake xs).eq_iff (madeOf_unordered hmake ys) array_injective h

theorem memberJson_constant_iff {e : Value × Value} (h : ∃ m, memberJson e = .ok m) :
    (∀ f, EntryReordered e f → memberJson f = memberJson e) ↔ e.2.Steady json := by
  obtain ⟨⟨key, hkey⟩, s, hs⟩ := exists_memberJson_iff.mp h
  -- the key has one text in every order, so that only the value can make a difference
  have hvalue {f : Value × Value} (hf : EntryReordered e f) :
      memberJson f = memberJson e ↔ f.2.json = e.2.json := by
    rw [memberJson, memberJson, hf.1.keyText?, hkey, hs]
    constructor
    · intro heq
      obtain ⟨s', hs', hentry⟩ := Report.except_map_eq_ok.mp heq
      rw [hs', entry_injective hentry]
    · exact fun heq => by rw [heq]
  constructor
  · intro hsame w hw
    exact (hvalue (f := (e.1, w)) ⟨.same e.1, hw⟩).mp (hsame _ ⟨.same e.1, hw⟩)
  · exact fun hsteady f hf => (hvalue hf).mpr (hsteady f.2 hf.2)

theorem steady_json_map_iff {es : Entries} (h : (map es).json = .ok s) :
    (map es).Steady json ↔ ∀ e ∈ es, e.2.Steady json := by
  have hparts (fs : Entries) :
      (map fs).json = (map es).json ↔ fs.map memberJson = es.map memberJson :=
    (madeOf_map es).eq_iff (madeOf_map fs) object_injective h
  -- the entries keep their order, so what may change are the values
  have hsteady : (map es).Steady json ↔
      ∀ fs : Entries, List.Forall₂ EntryReordered es fs →
        fs.map memberJson = es.map memberJson := by
    constructor
    · exact fun hsame fs hfs => (hparts fs).mp (hsame _ (reordered_map_iff.mpr ⟨fs, hfs, rfl⟩))
    · intro hsame w hw
      obtain ⟨fs, hfs, rfl⟩ := reordered_map_iff.mp hw
      exact (hparts fs).mpr (hsame fs hfs)
  have hentries := (madeOf_map es).exists_iff.mp ⟨s, h⟩
  rw [hsteady, map_constant_iff EntryReordered.refl]
  exact forall₂_congr fun e he => memberJson_constant_iff (hentries e he)

end Json

/-! ### Values that do not show the order -/

/-- **The order shows nowhere**: the items of each set within a value keep apart. -/
def Settled (v : Value) : Prop :=
  ∀ u, Within u v → u.isUnordered = true → u.elements.Pairwise (Apart Reordered plainText json)

theorem settled_iff {v : Value} : v.Settled ↔
    (∀ y ∈ v.elements, y.Settled) ∧
      (v.isUnordered = true → v.elements.Pairwise (Apart Reordered plainText json)) := by
  constructor
  · exact fun h => ⟨fun y hy u hu => h u (.element hy hu), h v .self⟩
  · rintro ⟨helements, hself⟩ u hu
    cases hu with
    | self => exact hself
    | element hy hu => exact helements _ hy u hu

theorem settled_of_leaf {v : Value} (h : v.isStructure = false) : v.Settled := by
  rw [settled_iff, elements_of_leaf h]
  exact ⟨List.forall_mem_nil _, fun _ => .nil⟩

section Collections

variable {xs : List Value} {make : List Value → Value}

theorem settled_ordered_iff (hmake : KeepsOrder make) :
    (make xs).Settled ↔ ∀ x ∈ xs, x.Settled := by
  rw [settled_iff]
  cases hmake <;> exact and_iff_left fun h => absurd h Bool.false_ne_true

theorem settled_unordered_iff (hmake : LacksOrder make) :
    (make xs).Settled ↔
      (∀ x ∈ xs, x.Settled) ∧ xs.Pairwise (Apart Reordered plainText json) := by
  rw [settled_iff]
  cases hmake <;> exact and_congr_right fun _ => ⟨fun h => h rfl, fun h _ => h⟩

theorem settled_map_iff {es : Entries} : (map es).Settled ↔ ∀ e ∈ es, e.2.Settled := by
  rw [settled_iff, elements, List.forall_mem_map]
  exact and_iff_left fun h => absurd h Bool.false_ne_true

/-- **A set of scalars does not show the order** exactly if any two items that are written in
different ways have different plain texts. -/
theorem settled_iff_of_leaves (hmake : LacksOrder make)
    (hleaf : ∀ x ∈ xs, x.isStructure = false) :
    (make xs).Settled ↔ xs.Pairwise fun x y => x.json = y.json ∨ x.plainText ≠ y.plainText := by
  -- a leaf has no other order, so there is one plain text of it to compare
  have hahead : ∀ x ∈ xs, ∀ y ∈ xs, Ahead Reordered plainText x y ↔ x.plainText < y.plainText := by
    intro x hx y hy
    constructor
    · exact fun h => h x y (.same x) (.same y)
    · intro h x' y' hx' hy'
      rw [hx'.eq_of_leaf (hleaf x hx), hy'.eq_of_leaf (hleaf y hy)]
      exact h
  rw [settled_unordered_iff hmake, and_iff_right fun x hx => settled_of_leaf (hleaf x hx)]
  refine List.Pairwise.iff_of_mem fun {x y} hx hy => ?_
  rw [Apart, hahead x hx y hy, hahead y hy x hx, lt_or_lt_iff_ne]

end Collections

/-- **When the order does not show in the JSON text of a value**: exactly if it shows in none of the
sets within it. -/
theorem steady_json_iff {v : Value} {s : String} (h : v.json = .ok s) :
    v.Steady json ↔ v.Settled := by
  -- along elements: what a text shows of the order its parts show, down to the leaves
  induction v using elements_induction generalizing s with
  | h v ih =>
    have helements : (∀ y ∈ v.elements, y.Steady json) ↔ ∀ y ∈ v.elements, y.Settled := by
      refine forall₂_congr fun y hy => ?_
      obtain ⟨s', hs'⟩ := exists_json_of_mem_elements hy ⟨s, h⟩
      exact ih y hy hs'
    cases v with
    | list xs =>
      rw [steady_json_ordered_iff .list h, settled_ordered_iff .list]
      exact helements
    | tuple xs =>
      rw [steady_json_ordered_iff .tuple h, settled_ordered_iff .tuple]
      exact helements
    | set xs =>
      -- of a set the items have to keep apart as well
      rw [steady_json_unordered_iff .set h, settled_unordered_iff .set]
      exact and_congr_left' helements
    | frozenset xs =>
      rw [steady_json_unordered_iff .frozenset h, settled_unordered_iff .frozenset]
      exact and_congr_left' helements
    | map es =>
      rw [elements, List.forall_mem_map, List.forall_mem_map] at helements
      rw [steady_json_map_iff h, settled_map_iff]
      exact helements
    | _ => exact iff_of_true (steady_of_leaf rfl) (settled_of_leaf rfl)

end Value

end BoundSql
