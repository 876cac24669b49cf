import BoundSql.Proofs.Insert.Stored
import BoundSql.Proofs.Report
import Mathlib.Data.List.Nodup

/-!
# Two keys of one column

Different keys may name one column, and then a row cannot be stored: neither of the two values may
be lost. The entries of a row are gone through in order, with the columns taken so far and the key
that took each. The first entry whose column is taken ends this, and its key is reported together
with the key that took the column.

The invariant of the loop is that the columns taken are those of the entries gone through, none of
them twice (`taken`). So an entry whose column is taken collides with exactly one entry in front of
it, and a row that is stored has one column for every entry that is set.

* `FirstClash` — the first two of a list that agree in what should differ;
* `exists_firstClash_of_error` — the loop stops at a first clash, from any entries gone through;
* `storedRow_keeps_or_collides` — a row is kept entry by entry, or its first two keys of one column
  are reported.
-/

namespace BoundSql

/-! ### The first clash -/

section Clash

variable {α κ : Type _} {f : α → κ}

/-- **The first clash in a list.** In front of the item `b` no two items agree, and one of them
alone, the item `a`, agrees with `b`. -/
def FirstClash (f : α → κ) (as : List α) (a b : α) : Prop :=
  ∃ front behind, as = front ++ b :: behind ∧ (front.map f).Nodup ∧ a ∈ front ∧ f a = f b ∧
    ∀ x ∈ front, f x = f b → x = a

/-- An item that agrees with one in front of it is a clash, if no two in front agree. -/
theorem firstClash_of_mem {front behind : List α} {a b : α} (hnodup : (front.map f).Nodup)
    (ha : a ∈ front) (hagree : f a = f b) : FirstClash f (front ++ b :: behind) a b := by
  refine ⟨front, behind, rfl, hnodup, ha, hagree, fun x hx hfx => ?_⟩
  exact List.inj_on_of_nodup_map hnodup hx ha (hfx.trans hagree.symm)

/-- Where an item agrees with one in front of it, not all of them differ. -/
theorem not_nodup_of_agree {front behind : List α} {a b : α} (ha : a ∈ front)
    (hagree : f a = f b) : ¬ ((front ++ b :: behind).map f).Nodup := by
  intro hnodup
  rw [List.map_append, List.map_cons] at hnodup
  obtain ⟨-, -, hapart⟩ := List.nodup_append.mp hnodup
  exact hapart (f a) (List.mem_map_of_mem ha) (f b) List.mem_cons_self hagree

theorem FirstClash.not_nodup {as : List α} {a b : α} (h : FirstClash f as a b) :
    ¬ (as.map f).Nodup := by
  obtain ⟨front, behind, rfl, -, ha, hagree, -⟩ := h
  exact not_nodup_of_agree ha hagree

/-- **There is one first clash at most.** -/
theorem FirstClash.unique {as : List α} {a b a' b' : α} (h : FirstClash f as a b)
    (h' : FirstClash f as a' b') : a = a' ∧ b = b' := by
  obtain ⟨front, behind, rfl, hnodup, ha, hagree, honly⟩ := h
  obtain ⟨front', behind', hlist, hnodup', ha', hagree', honly'⟩ := h'
  -- of two fronts the longer one would have the later item of the shorter, and so a clash in it
  rcases List.append_eq_append_iff.mp hlist with ⟨more, rfl, hmore⟩ | ⟨more, rfl, hmore⟩
  · cases more with
    | nil =>
      obtain ⟨rfl, -⟩ := List.cons.inj hmore
      rw [List.append_nil] at honly'
      exact ⟨honly' a ha hagree, rfl⟩
    | cons x more =>
      obtain ⟨rfl, -⟩ := List.cons.inj hmore
      exact absurd hnodup' (not_nodup_of_agree ha hagree)
  · cases more with
    | nil =>
      obtain ⟨rfl, -⟩ := List.cons.inj hmore
      rw [List.append_nil] at honly
      exact ⟨(honly a' ha' hagree').symm, rfl⟩
    | cons x more =>
      obtain ⟨rfl, -⟩ := List.cons.inj hmore
      exact absurd hnodup (not_nodup_of_agree ha' hagree')

end Clash

/-! ### Columns that are taken -/

/-- The column of an entry. -/
def entryColumn (e : Value × Value) : Option String := e.1.column?

/-- The columns that entries took, each with its key. -/
def taken (es : Entries) : List (String × RowKey) :=
  es.filterMap fun e => (entryColumn e).map fun column => (column, RowKey.ofValue e.1)

theorem taken_append_singleton (es : Entries) {e : Value × Value} {column : String}
    (h : entryColumn e = some column) :
    taken (es ++ [e]) = taken es ++ [(column, RowKey.ofValue e.1)] := by
  simp [taken, h]

/-- A column that is not taken is that of no entry. -/
theorem earlierKey_taken_eq_none {column : String} {es : Entries} :
    earlierKey column (taken es) = none ↔ some column ∉ es.map entryColumn := by
  rw [earlierKey_eq_none]
  apply not_congr
  simp [taken]

/-- **A column that is taken** is that of an entry, whose key took it. -/
theorem exists_of_earlierKey_taken {column : String} {key : RowKey} {es : Entries}
    (h : earlierKey column (taken es) = some key) :
    ∃ e ∈ es, entryColumn e = some column ∧ RowKey.ofValue e.1 = key := by
  obtain ⟨⟨column', key'⟩, hfind, rfl⟩ := Option.map_eq_some_iff.mp h
  have hcolumn : column' = column := by
    simpa using List.find?_some hfind
  obtain ⟨e, he, hkey⟩ := List.mem_filterMap.mp (List.mem_of_find?_eq_some hfind)
  obtain ⟨column'', hentry, hpair⟩ := Option.map_eq_some_iff.mp hkey
  obtain ⟨rfl, rfl⟩ := Prod.mk.inj hpair
  exact ⟨e, he, hcolumn ▸ hentry, rfl⟩

/-! ### The first entry whose column is taken -/

section Loop

variable {arrays : List String} {seen : List (String × RowKey)} {e : Value × Value} {es : Entries}
  {change : String × Value}

/-- **One entry that can be stored**: its column may be taken, and if not it is taken now. -/
theorem storedEntries_cons (hset : e.2.isSet = true) (h : Stores arrays e change) :
    storedEntries arrays seen (e :: es) = match earlierKey change.1 seen with
      | some earlier =>
        .error (.build (.duplicateColumn change.1 [earlier, RowKey.ofValue e.1]))
      | none =>
        (storedEntries arrays (seen ++ [(change.1, RowKey.ofValue e.1)]) es).map (change :: ·) := by
  obtain ⟨k, v⟩ := e
  obtain ⟨column, bound⟩ := change
  obtain ⟨name, hname, rfl⟩ := Option.map_eq_some_iff.mp h.column
  have hbound : v.stored arrays (Ident.snakeCase name) = .ok bound := h.bound
  rw [storedEntries, if_pos hset, hname]
  -- only now is the value asked for, and it can be stored
  cases hearlier : earlierKey (Ident.snakeCase name) seen with
  | none => simp only [hearlier, hbound]
  | some earlier => simp only [hearlier]

/-- An entry that is not set is passed over. -/
theorem storedEntries_cons_unset (hset : ¬ e.2.isSet = true) :
    storedEntries arrays seen (e :: es) = storedEntries arrays seen es := by
  obtain ⟨k, v⟩ := e
  rw [storedEntries, if_neg hset]

/-- **Entries that are not set neither appear nor collide**: without them a row is the same. -/
theorem storedEntries_setEntries :
    storedEntries arrays seen (setEntries es) = storedEntries arrays seen es := by
  induction es generalizing seen with
  | nil => rfl
  | cons e es ih =>
    -- an entry that is not set is passed over, whatever was seen before
    by_cases hset : e.2.isSet = true
    · have hentries : setEntries (e :: es) = e :: setEntries es := List.filter_cons_of_pos hset
      obtain ⟨k, v⟩ := e
      rw [hentries, storedEntries, storedEntries]
      simp only [ih]
    · have hentries : setEntries (e :: es) = setEntries es := List.filter_cons_of_neg hset
      rw [hentries, storedEntries_cons_unset hset, ih]

/-- **The loop stops at a first clash.** Behind entries gone through, none of which has the column
of another, an error is that of the first two keys of one column. -/
theorem exists_firstClash_of_error {done : Entries} {err : Error}
    (hset : ∀ e ∈ es, e.2.isSet = true) (hstores : ∀ e ∈ es, ∃ change, Stores arrays e change)
    (hdone : (done.map entryColumn).Nodup)
    (h : storedEntries arrays (taken done) es = .error err) :
    ∃ column a b, FirstClash entryColumn (done ++ es) a b ∧ entryColumn b = some column ∧
      err = .build (.duplicateColumn column [RowKey.ofValue a.1, RowKey.ofValue b.1]) := by
  -- by induction on the entries still to come, with any entries gone through in front
  induction es generalizing done with
  | nil => cases h
  | cons e es ih =>
    obtain ⟨heset, hset⟩ := List.forall_mem_cons.mp hset
    obtain ⟨⟨change, hchange⟩, hstores⟩ := List.forall_mem_cons.mp hstores
    have hcolumn : entryColumn e = some change.1 := hchange.column
    rw [storedEntries_cons heset hchange] at h
    cases hearlier : earlierKey change.1 (taken done) with
    | some earlier =>
      rw [hearlier] at h
      obtain ⟨a, ha, hagree, rfl⟩ := exists_of_earlierKey_taken hearlier
      exact ⟨change.1, a, e, firstClash_of_mem hdone ha (hagree.trans hcolumn.symm), hcolumn,
        (Except.error.inj h).symm⟩
    | none =>
      rw [hearlier, Report.except_map_eq_error, ← taken_append_singleton done hcolumn] at h
      -- the column of this entry is new, so the invariant holds behind it
      have hnew : entryColumn e ∉ done.map entryColumn :=
        hcolumn ▸ earlierKey_taken_eq_none.mp hearlier
      have hdone' : ((done ++ [e]).map entryColumn).Nodup := by
        rw [List.map_append, List.map_singleton]
        exact hdone.append (List.nodup_singleton _) (List.disjoint_singleton.mpr hnew)
      obtain ⟨column, a, b, hclash, hb, herr⟩ := ih hset hstores hdone' h
      rw [List.append_assoc] at hclash
      exact ⟨column, a, b, hclash, hb, herr⟩

end Loop

/-! ### Rows -/

section Row

variable {arrays : List String} {es : Entries}

/-- Every entry of a row that is set can be stored by itself: its key names a column, and its value
can be bound there. -/
def Storable (arrays : List String) (es : Entries) : Prop :=
  ∀ e ∈ setEntries es, ∃ change, Stores arrays e change

theorem storedRow_setEntries :
    storedRow arrays (.map (setEntries es)) = storedRow arrays (.map es) :=
  storedEntries_setEntries

/-- **An error is a clash**: the first two entries that are set and have one column. -/
theorem exists_firstClash (h : Storable arrays es) {err : Error}
    (herr : storedRow arrays (.map es) = .error err) :
    ∃ column a b, FirstClash entryColumn (setEntries es) a b ∧ entryColumn b = some column ∧
      err = .build (.duplicateColumn column [RowKey.ofValue a.1, RowKey.ofValue b.1]) := by
  rw [← storedRow_setEntries] at herr
  have hset : ∀ e ∈ setEntries es, e.2.isSet = true := fun e he => (List.mem_filter.mp he).2
  have hnil : (([] : Entries).map entryColumn).Nodup := List.nodup_nil
  exact exists_firstClash_of_error hset h hnil herr

/-- Where entries are stored in different columns, no two of them have one column. -/
theorem nodup_entryColumn {row : StoredRow} (hnodup : (row.map (·.1)).Nodup)
    (h : List.Forall₂ (Stores arrays) (setEntries es) row) :
    ((setEntries es).map entryColumn).Nodup := by
  have hcolumns : (setEntries es).map entryColumn = (row.map (·.1)).map some := by
    rw [← List.forall₂_eq_eq_eq, List.forall₂_map_left_iff, List.map_map,
      List.forall₂_map_right_iff]
    exact h.imp fun _ _ hstores => hstores.column
  rw [hcolumns]
  exact hnodup.map fun _ _ heq => Option.some.inj heq

/-- **Entries of different columns are stored**, each as it is by itself. -/
theorem storedRow_eq_ok_iff (h : Storable arrays es) {row : StoredRow} :
    storedRow arrays (.map es) = .ok row ↔
      List.Forall₂ (Stores arrays) (setEntries es) row ∧ (row.map (·.1)).Nodup := by
  constructor
  · intro hrow
    exact ⟨storedEntries_forall₂ hrow, (nodup_storedEntries hrow).1⟩
  · rintro ⟨hstores, hnodup⟩
    cases hresult : storedRow arrays (.map es) with
    | error err =>
      obtain ⟨column, a, b, hclash, -⟩ := exists_firstClash h hresult
      exact absurd (nodup_entryColumn hnodup hstores) hclash.not_nodup
    | ok row' =>
      -- each entry is stored in one way only
      have hunique : Relator.RightUnique (Stores arrays) := by
        intro e change change' hchange hchange'
        have hcolumn : change.1 = change'.1 :=
          Option.some.inj (hchange.column.symm.trans hchange'.column)
        have hbound := hchange.bound
        rw [hcolumn, hchange'.bound] at hbound
        exact Prod.ext hcolumn (Except.ok.inj hbound).symm
      rw [hunique.forall₂ (storedEntries_forall₂ hresult) hstores]

/-- **An error is reported exactly for the first two entries of one column.** -/
theorem storedRow_eq_error_iff (h : Storable arrays es) {err : Error} :
    storedRow arrays (.map es) = .error err ↔
      ∃ column a b, FirstClash entryColumn (setEntries es) a b ∧ entryColumn b = some column ∧
        err = .build (.duplicateColumn column [RowKey.ofValue a.1, RowKey.ofValue b.1]) := by
  constructor
  · exact exists_firstClash h
  · rintro ⟨column, a, b, hclash, hcolumn, rfl⟩
    -- a clash rules out a row, and there is one first clash only
    cases hresult : storedRow arrays (.map es) with
    | ok row =>
      obtain ⟨hstores, hnodup⟩ := (storedRow_eq_ok_iff h).mp hresult
      exact absurd (nodup_entryColumn hnodup hstores) hclash.not_nodup
    | error err =>
      obtain ⟨column', a', b', hclash', hcolumn', rfl⟩ := exists_firstClash h hresult
      obtain ⟨rfl, rfl⟩ := hclash.unique hclash'
      obtain rfl : column' = column := Option.some.inj (hcolumn'.symm.trans hcolumn)
      rfl

/-- **Every entry of a row that is set is kept once, or the row is refused.** For any array columns
and any row of which every entry that is set can be stored by itself:

* the row is refused with an error exactly if there is a first entry whose column an entry in front
  of it has; the error names the column and the two keys, and no other entry in front has the
  column;
* if its keys differ, the row is refused exactly if two of those that are set name one column;
* otherwise every entry that is set is stored, in order and by itself, and no column comes twice;
* entries that are not set make no difference.
-/
theorem storedRow_keeps_or_collides (h : Storable arrays es) :
    (∀ err, storedRow arrays (.map es) = .error err ↔
      ∃ column a b, FirstClash entryColumn (setEntries es) a b ∧ entryColumn b = some column ∧
        err = .build (.duplicateColumn column [RowKey.ofValue a.1, RowKey.ofValue b.1])) ∧
    ((es.map (·.1)).Nodup → ((∃ err, storedRow arrays (.map es) = .error err) ↔
      ∃ a ∈ setEntries es, ∃ b ∈ setEntries es, a.1 ≠ b.1 ∧ entryColumn a = entryColumn b)) ∧
    (∀ row, storedRow arrays (.map es) = .ok row ↔
      List.Forall₂ (Stores arrays) (setEntries es) row ∧ (row.map (·.1)).Nodup) ∧
    storedRow arrays (.map (setEntries es)) = storedRow arrays (.map es) := by
  refine ⟨fun err => storedRow_eq_error_iff h, fun hkeys => ?_, fun row => storedRow_eq_ok_iff h,
    storedRow_setEntries⟩
  constructor
  · -- the two entries of the clash stand in different places, so their keys differ
    rintro ⟨err, herr⟩
    obtain ⟨column, a, b, ⟨front, behind, hsplit, -, ha, hagree, -⟩, -⟩ := exists_firstClash h herr
    have hset : ((setEntries es).map (·.1)).Nodup :=
      hkeys.sublist (List.filter_sublist.map _)
    rw [hsplit] at hset ⊢
    have hne : a.1 ≠ b.1 := fun heq => not_nodup_of_agree ha heq hset
    exact ⟨a, List.mem_append_left _ ha, b, List.mem_append_right _ List.mem_cons_self, hne, hagree⟩
  · -- a row without an error has each column once, so the two would be one entry
    rintro ⟨a, ha, b, hb, hne, hagree⟩
    cases hresult : storedRow arrays (.map es) with
    | error err => exact ⟨err, rfl⟩
    | ok row =>
      obtain ⟨hstores, hnodup⟩ := (storedRow_eq_ok_iff h).mp hresult
      have heq : a = b := List.inj_on_of_nodup_map (nodup_entryColumn hnodup hstores) ha hb hagree
      exact absurd (congrArg Prod.fst heq) hne

/-- Three spellings of one column, of which the second is not set, and another column in between. -/
def respelledEntries : Entries :=
  [(.text "ownerId", .int 1), (.text "OWNER_ID", .unset), (.text "tags", .list [.text "a b"]),
    (.text "owner id", .null)]

/-- The two spellings that are set collide; without the last entry the row is stored. -/
theorem storedRow_keeps_or_collides_of_spellings :
    Storable ["tags"] respelledEntries ∧ (respelledEntries.map (·.1)).Nodup ∧
    (∃ err, storedRow ["tags"] (.map respelledEntries) = .error err) ∧
    storedRow ["tags"] (.map respelledEntries) = .error (.build (.duplicateColumn "owner_id"
      [⟨"ownerId", "'ownerId'"⟩, ⟨"owner id", "'owner id'"⟩])) ∧
    storedRow ["tags"] (.map (respelledEntries.take 3)) =
      .ok [("owner_id", .int 1), ("tags", .text "\x7b\"a b\"\x7d")] := by
  have howner : Stores ["tags"] (.text "ownerId", .int 1) ("owner_id", .int 1) := ⟨rfl, rfl⟩
  have htags : Stores ["tags"] (.text "tags", .list [.text "a b"])
      ("tags", .text "\x7b\"a b\"\x7d") := ⟨rfl, rfl⟩
  have hrespelled : Stores ["tags"] (.text "owner id", .null) ("owner_id", .null) := ⟨rfl, rfl⟩
  have hstorable : Storable ["tags"] respelledEntries :=
    List.forall_mem_cons.mpr ⟨⟨_, howner⟩,
      List.forall_mem_cons.mpr ⟨⟨_, htags⟩, List.forall_mem_singleton.mpr ⟨_, hrespelled⟩⟩⟩
  have hshort : Storable ["tags"] (respelledEntries.take 3) :=
    List.forall_mem_cons.mpr ⟨⟨_, howner⟩, List.forall_mem_singleton.mpr ⟨_, htags⟩⟩
  have hkeys : (respelledEntries.map (·.1)).Nodup := by
    simp [respelledEntries]
  obtain ⟨herror, hrefused, -⟩ := storedRow_keeps_or_collides hstorable
  obtain ⟨-, -, hok, -⟩ := storedRow_keeps_or_collides hshort
  -- the entry between the two has another column
  have hclash : FirstClash entryColumn (setEntries respelledEntries) (.text "ownerId", .int 1)
      (.text "owner id", .null) :=
    @firstClash_of_mem _ _ entryColumn [_, _] [] _ _ (by decide) List.mem_cons_self rfl
  refine ⟨hstorable, hkeys, (hrefused hkeys).mpr ?_, (herror _).mpr ?_, (hok _).mpr ?_⟩
  · exact ⟨_, .head _, _, .tail _ (.tail _ (.head _)), by simp, rfl⟩
  · exact ⟨"owner_id", _, _, hclash, rfl, rfl⟩
  · exact ⟨.cons howner (.cons htags .nil), by decide⟩

end Row

end BoundSql
