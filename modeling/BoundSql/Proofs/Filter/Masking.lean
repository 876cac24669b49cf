import BoundSql.Filter.Read
import BoundSql.Proofs.Filter.Checked
import BoundSql.Proofs.Report

/-!
# Filters without their values

Masking a filter puts nothing in the place of every value it compares with, and keeps the rest: the
fields, the operators, the joiners and the nesting. Raw filters are masked in the same places.
Reading never looks at a value, so reading a masked filter gives the masked nodes, or the same
error.

* `Node.ofValue?_maskedNode` — built nodes are recognised alike;
* `Node.readAll_maskedItems` — siblings are read alike, at any depth;
* `Node.readItems_maskedFilter`, `Node.ofFilters_maskedFilter` — filters in either form.
-/

namespace BoundSql

/-! ### Masks -/

/-- A leaf without its value. -/
def Leaf.masked (l : Leaf) : Leaf := { l with value := .null }

namespace Node

mutual

/-- A node without the values of its leaves. -/
def masked : Node → Node
  | leaf l => leaf l.masked
  | group children j => group (maskedAll children) j

/-- Siblings without the values of their leaves. -/
def maskedAll : List Node → List Node
  | [] => []
  | n :: ns => n.masked :: maskedAll ns

end

end Node

namespace Value

mutual

/-- A raw or built node without the values of its leaves. -/
def maskedNode : Value → Value
  | map es => map (maskedEntries es)
  | record type fields => record type (maskedFields fields)
  | v => v

/-- The entries of a raw node without the values of its leaves. -/
def maskedEntries : Entries → Entries
  | [] => []
  | (k, v) :: rest =>
    (k, if k.isKey "value" then null
      else if k.isKey "expressions" then maskedChildren v else v) :: maskedEntries rest

/-- The fields of a built node without the values of its leaves. -/
def maskedFields : List (String × Value) → List (String × Value)
  | [] => []
  | (name, v) :: rest =>
    (name, if name = "value" then null
      else if name = "expressions" then maskedChildren v else v) :: maskedFields rest

/-- The children of a node without the values of their leaves. -/
def maskedChildren : Value → Value
  | list xs => list (maskedItems xs)
  | tuple xs => tuple (maskedItems xs)
  | v => v

/-- Raw or built siblings without the values of their leaves. -/
def maskedItems : List Value → List Value
  | [] => []
  | x :: xs => maskedNode x :: maskedItems xs

end

/-- A filter without its values: those of a mapping, or those of the leaves among its nodes. -/
def maskedFilter : Value → Value
  | map es => map (es.map fun e => (e.1, null))
  | list xs => list (maskedItems xs)
  | tuple xs => tuple (maskedItems xs)
  | set xs => set (maskedItems xs)
  | frozenset xs => frozenset (maskedItems xs)
  | v => v

end Value

/-! ### Built nodes -/

namespace Value

theorem maskedFields_eq_nil {fields : List (String × Value)} :
    maskedFields fields = [] ↔ fields = [] := by
  cases fields <;> simp [maskedFields]

theorem maskedFields_eq_cons {fields masked : List (String × Value)} {name : String} {v : Value} :
    maskedFields fields = (name, v) :: masked ↔
      ∃ w rest, fields = (name, w) :: rest ∧
        (if name = "value" then null
          else if name = "expressions" then maskedChildren w else w) = v ∧
        maskedFields rest = masked := by
  cases fields with
  | nil => simp [maskedFields]
  | cons field rest =>
    obtain ⟨n, w⟩ := field
    simp only [maskedFields, List.cons.injEq, Prod.mk.injEq]
    constructor
    · rintro ⟨⟨rfl, hv⟩, hrest⟩
      exact ⟨w, rest, ⟨⟨rfl, rfl⟩, rfl⟩, hv, hrest⟩
    · rintro ⟨_, _, ⟨⟨rfl, rfl⟩, rfl⟩, hv, hrest⟩
      exact ⟨⟨rfl, hv⟩, hrest⟩

end Value

open Value

theorem Leaf.ofFields?_eq_some {fields : List (String × Value)} {l : Leaf} :
    ofFields? fields = some l ↔ ∃ j, Joiner.ofValue? j = some l.joiner ∧
      fields = [("field", .text l.field), ("operator", .text l.operator), ("value", l.value),
        ("condition_type", j)] := by
  unfold ofFields?
  split
  · -- the fields of a leaf in their order
    rename_i field operator value j
    constructor
    · intro h
      obtain ⟨joiner, hj, rfl⟩ := Option.map_eq_some_iff.mp h
      exact ⟨j, hj, rfl⟩
    · rintro ⟨j', hj, hfields⟩
      cases l
      cases hfields
      exact Option.map_eq_some_iff.mpr ⟨_, hj, rfl⟩
  · -- anything else is no leaf
    rename_i hother
    constructor
    · intro h
      cases h
    · rintro ⟨j, -, rfl⟩
      exact absurd rfl (hother _ _ _ _)

/-- A built leaf is recognised without its value too. -/
theorem Leaf.ofFields?_maskedFields (fields : List (String × Value)) :
    ofFields? (maskedFields fields) = (ofFields? fields).map masked := by
  refine Option.ext fun l' => ?_
  rw [Option.map_eq_some_iff, ofFields?_eq_some]
  constructor
  · rintro ⟨j, hj, hmasked⟩
    obtain ⟨field, rest, rfl, hfield, hrest⟩ := maskedFields_eq_cons.mp hmasked
    obtain ⟨operator, rest, rfl, hoperator, hrest⟩ := maskedFields_eq_cons.mp hrest
    obtain ⟨value, rest, rfl, hvalue, hrest⟩ := maskedFields_eq_cons.mp hrest
    obtain ⟨joiner, rest, rfl, hjoiner, hrest⟩ := maskedFields_eq_cons.mp hrest
    obtain rfl := maskedFields_eq_nil.mp hrest
    -- the mask changes the third field alone
    simp only [String.reduceEq, ↓reduceIte] at hfield hoperator hvalue hjoiner
    subst hfield hoperator hjoiner
    refine ⟨{ l' with value := value }, ofFields?_eq_some.mpr ⟨_, hj, rfl⟩, ?_⟩
    rw [masked, hvalue]
  · rintro ⟨l, hl, rfl⟩
    obtain ⟨j, hj, rfl⟩ := ofFields?_eq_some.mp hl
    exact ⟨j, hj, rfl⟩

namespace Node

/-- Fields that do not have the names of a group's fields are no group. -/
theorem ofGroupFields?_of_ne {first last : String × Value}
    (h : first.1 ≠ "expressions" ∨ last.1 ≠ "condition_type") :
    ofGroupFields? [first, last] = none := by
  unfold ofGroupFields?
  split
  · rename_i heq
    cases heq
    rcases h with h | h
    · exact if_neg h
    · exact absurd rfl h
  · rfl

theorem ofGroupFields?_of_length_ne {fields : List (String × Value)} (h : fields.length ≠ 2) :
    ofGroupFields? fields = none := by
  unfold ofGroupFields?
  split
  · exact absurd rfl h
  · rfl

mutual

/-- **Built nodes** are recognised without their values too. -/
theorem ofValue?_maskedNode (v : Value) : ofValue? v.maskedNode = (ofValue? v).map masked := by
  cases v with
  | record type fields =>
    have hgroup := ofGroupFields?_maskedFields fields
    rw [maskedNode, ofValue?, ofValue?, hgroup, Leaf.ofFields?_maskedFields]
    split
    · rw [Option.map_map, Option.map_map]
      rfl
    · split <;> rfl
  | _ => rfl

theorem ofGroupFields?_maskedFields : ∀ fields : List (String × Value),
    ofGroupFields? (maskedFields fields) = (ofGroupFields? fields).map masked
  -- a group has exactly two fields, and the mask neither adds nor drops one
  | [] => rfl
  | [field] => by
    have hlength : (maskedFields [field]).length ≠ 2 := by simp [maskedFields]
    have hlength' : [field].length ≠ 2 := by simp
    rw [ofGroupFields?_of_length_ne hlength, ofGroupFields?_of_length_ne hlength']
    rfl
  | field :: field' :: field'' :: rest => by
    have hlength : (maskedFields (field :: field' :: field'' :: rest)).length ≠ 2 := by
      simp [maskedFields]
    have hlength' : (field :: field' :: field'' :: rest).length ≠ 2 := by simp
    rw [ofGroupFields?_of_length_ne hlength, ofGroupFields?_of_length_ne hlength']
    rfl
  | [(name, v), (name', j)] => by
    -- the two fields of a group are known by their names, and only the children are masked
    by_cases hnames : name = "expressions" ∧ name' = "condition_type"
    · obtain ⟨rfl, rfl⟩ := hnames
      cases v with
      | list xs =>
        have hchildren := ofValues?_maskedItems xs
        show (match ofValues? (maskedItems xs), Joiner.ofValue? j with
          | some children, some j => some (group children j)
          | _, _ => none) = Option.map masked (match ofValues? xs, Joiner.ofValue? j with
          | some children, some j => some (group children j)
          | _, _ => none)
        rw [hchildren]
        cases ofValues? xs with
        | none => rfl
        | some children => cases Joiner.ofValue? j <;> rfl
      | _ => rfl
    · have hne : name ≠ "expressions" ∨ name' ≠ "condition_type" :=
        Decidable.not_and_iff_or_not.mp hnames
      have hmasked : ofGroupFields? (maskedFields [(name, v), (name', j)]) = none :=
        ofGroupFields?_of_ne hne
      rw [hmasked, ofGroupFields?_of_ne hne]
      rfl

theorem ofValues?_maskedItems : ∀ xs : List Value,
    ofValues? (maskedItems xs) = (ofValues? xs).map maskedAll
  | [] => rfl
  | x :: xs => by
    rw [maskedItems, ofValues?, ofValues?, ofValue?_maskedNode x, ofValues?_maskedItems xs]
    cases ofValue? x with
    | none => rfl
    | some n =>
      cases ofValues? xs with
      | none => rfl
      | some ns => rfl

end

/-! ### Raw nodes -/

end Node

namespace Value

/-- A key has one name only. -/
theorem not_isKey_of_isKey {k : Value} {name other : String} (h : k.isKey name = true)
    (hne : name ≠ other) : ¬ k.isKey other = true := by
  intro hkey
  have hsame := (beq_iff_eq.mp h).symm.trans (beq_iff_eq.mp hkey)
  exact hne (Option.some.inj hsame)

theorem lookup_maskedEntries {name : String} (hvalue : name ≠ "value")
    (hchildren : name ≠ "expressions") (es : Entries) :
    lookup name (maskedEntries es) = lookup name es := by
  induction es with
  | nil => rfl
  | cons e es ih =>
    obtain ⟨k, v⟩ := e
    rw [maskedEntries, lookup, lookup, ih]
    by_cases hk : k.isKey name = true
    · rw [if_pos hk, if_pos hk, if_neg (not_isKey_of_isKey hk hvalue),
        if_neg (not_isKey_of_isKey hk hchildren)]
    · rw [if_neg hk, if_neg hk]

theorem lookup_value_maskedEntries (es : Entries) :
    lookup "value" (maskedEntries es) = (lookup "value" es).map fun _ => null := by
  induction es with
  | nil => rfl
  | cons e es ih =>
    obtain ⟨k, v⟩ := e
    rw [maskedEntries, lookup, lookup, ih]
    split <;> rfl

end Value

namespace Check

theorem unknownKeys_maskedEntries (known : List String) (es : Entries) :
    unknownKeys known (maskedEntries es) = unknownKeys known es := by
  induction es with
  | nil => rfl
  | cons e es ih =>
    obtain ⟨k, v⟩ := e
    rw [maskedEntries, unknownKeys, unknownKeys, ih]

/-- Unknown keys are found whatever becomes of a good value, and without the values of the entries
too. -/
theorem closed_maskedEntries {α β : Type} (known : List String) (es : Entries) (c : Checked α)
    (f : α → β) : closed known (maskedEntries es) (c.map f) = (closed known es c).map f := by
  unfold closed
  rw [unknownKeys_maskedEntries]
  cases unknownKeys known es with
  | nil => rfl
  | cons issue found => cases c <;> rfl

theorem joinerField_maskedEntries (es : Entries) :
    joinerField (maskedEntries es) = joinerField es ∧
      spelling "conditionType" "condition_type" (maskedEntries es) =
        spelling "conditionType" "condition_type" es := by
  have hcamel : lookup "conditionType" (maskedEntries es) = lookup "conditionType" es :=
    lookup_maskedEntries (by decide) (by decide) es
  have hsnake : lookup "condition_type" (maskedEntries es) = lookup "condition_type" es :=
    lookup_maskedEntries (by decide) (by decide) es
  have hspelling : spelling "conditionType" "condition_type" (maskedEntries es) =
      spelling "conditionType" "condition_type" es := by
    rw [spelling, spelling, hcamel]
  -- whichever spelling is asked for, its value is not masked
  have hlookup : lookup (spelling "conditionType" "condition_type" es) (maskedEntries es) =
      lookup (spelling "conditionType" "condition_type" es) es := by
    unfold spelling
    split
    · exact hcamel
    · exact hsnake
  refine ⟨?_, hspelling⟩
  rw [joinerField, joinerField, hspelling, allowed, allowed, hlookup]

end Check

/-- **A raw leaf** passes without its value too, or fails for the same reason. -/
theorem Leaf.check_maskedEntries (es : Entries) :
    check (maskedEntries es) = (check es).map masked := by
  have hfield : Check.required "field" Check.name (maskedEntries es) =
      Check.required "field" Check.name es := by
    rw [Check.required, Check.required, lookup_maskedEntries (by decide) (by decide)]
  have hoperator : Check.required "operator" Check.operatorTag (maskedEntries es) =
      Check.required "operator" Check.operatorTag es := by
    rw [Check.required, Check.required, lookup_maskedEntries (by decide) (by decide)]
  have hvalue : ∃ v, Check.allowed "value" .ok .null es = .ok v ∧
      Check.allowed "value" .ok .null (maskedEntries es) = .ok .null := by
    rw [Check.allowed, Check.allowed, lookup_value_maskedEntries]
    cases lookup "value" es with
    | none => exact ⟨_, rfl, rfl⟩
    | some v => exact ⟨v, rfl, rfl⟩
  obtain ⟨v, hv, hnull⟩ := hvalue
  obtain ⟨hjoiner, hspelling⟩ := Check.joinerField_maskedEntries es
  rw [check, check, hfield, hoperator, hv, hnull, hjoiner, hspelling,
    ← Check.closed_maskedEntries]
  refine congrArg _ ?_
  -- the other three fields decide, whatever stands between them
  cases Check.required "field" Check.name es <;>
    cases Check.required "operator" Check.operatorTag es <;>
    cases Check.joinerField es <;> rfl

/-- A raw group passes without the values of its leaves too. -/
theorem Node.checkGroup_maskedEntries (children : List Node) (es : Entries) :
    checkGroup (some (.ok (maskedAll children))) (maskedEntries es) =
      (checkGroup (some (.ok children)) es).map masked := by
  obtain ⟨hjoiner, hspelling⟩ := Check.joinerField_maskedEntries es
  rw [checkGroup, checkGroup, hjoiner, hspelling, ← Check.closed_maskedEntries]
  refine congrArg _ ?_
  cases Check.joinerField es <;> rfl

/-! ### Reading -/

namespace Node

open Report

/-- The outcome of a check without the values. -/
theorem checked_map {m : Model} {path : String} {c : Checked Node} {f : Node → Node} :
    checked m path (c.map f) = (checked m path c).map f := by
  cases c <;> rfl

/-- A node is kept among its siblings without its values too. -/
theorem keepOrDrop_masked (strict : Bool) (path : String) (item item' : Value)
    {r r' : Report Malformed Node} (h : r'.result = r.result.map masked) :
    (keepOrDrop strict path item' r').result =
      (keepOrDrop strict path item r).result.map (Option.map masked) := by
  unfold keepOrDrop
  rw [h]
  cases r.result with
  | ok n => rfl
  | error e => cases strict <;> rfl

mutual

/-- **A node is read** without its values too, or is malformed for the same reason. -/
theorem readOne_maskedNode (strict : Bool) (path : String) (v : Value) :
    (readOne strict path v.maskedNode).result = (readOne strict path v).result.map masked := by
  cases v with
  | map es =>
    have hchildren := readChildren_maskedEntries strict path es
    rw [maskedNode, readOne, readOne]
    generalize readChildren strict path (maskedEntries es) = masked? at hchildren ⊢
    generalize readChildren strict path es = children? at hchildren ⊢
    cases hchildren with
    | none =>
      -- without children on either side, the entries are checked as a leaf
      rw [Leaf.check_maskedEntries]
      cases Leaf.check es <;> rfl
    | some hchildren =>
      refine result_bind_eq_map hchildren fun children => ?_
      rw [checkGroup_maskedEntries, checked_map]
      rfl
  | record type fields =>
    have hbuilt := ofValue?_maskedNode (.record type fields)
    rw [maskedNode, readOne, readOne, ← maskedNode, hbuilt]
    · cases ofValue? (.record type fields) <;> rfl
    · exact fun es h => nomatch h
    · exact fun es h => nomatch h
  | _ => rfl

theorem readChildren_maskedEntries (strict : Bool) (path : String) : ∀ es : Entries,
    Option.Rel (fun r' r => r'.result = r.result.map maskedAll)
      (readChildren strict path (maskedEntries es)) (readChildren strict path es)
  | [] => .none
  | (k, v) :: rest => by
    rw [maskedEntries, readChildren, readChildren]
    by_cases hk : k.isKey "expressions" = true
    · have hvalue : ¬ k.isKey "value" = true := not_isKey_of_isKey hk (by decide)
      rw [if_pos hk, if_pos hk, if_neg hvalue, if_pos hk]
      exact .some (readList_maskedChildren strict path v)
    · rw [if_neg hk, if_neg hk]
      exact readChildren_maskedEntries strict path rest

theorem readList_maskedChildren (strict : Bool) (path : String) (v : Value) :
    (readList strict path v.maskedChildren).result =
      (readList strict path v).result.map maskedAll := by
  cases v with
  | list xs => exact readAll_maskedItems strict (path ++ ".expressions") 0 xs
  | tuple xs => exact readAll_maskedItems strict (path ++ ".expressions") 0 xs
  | _ => rfl

/-- **Siblings are read** without their values too. -/
theorem readAll_maskedItems (strict : Bool) (path : String) (index : Nat) : ∀ xs : List Value,
    (readAll strict path index (maskedItems xs)).result =
      (readAll strict path index xs).result.map maskedAll
  | [] => rfl
  | x :: xs => by
    have hone := readOne_maskedNode strict (itemPath path index) x
    have hrest := readAll_maskedItems strict path (index + 1) xs
    rw [maskedItems, readAll, readAll]
    refine result_bind_eq_map (keepOrDrop_masked strict _ x x.maskedNode hone) fun kept => ?_
    rw [Report.map, Report.map, hrest]
    cases (readAll strict path (index + 1) xs).result with
    | error e => rfl
    | ok rest => cases kept <;> rfl

end

/-! ### Filters -/

mutual

theorem masked_masked : ∀ n : Node, n.masked.masked = n.masked
  | leaf _ => rfl
  | group children j => by rw [masked, masked, maskedAll_maskedAll children]

theorem maskedAll_maskedAll : ∀ ns : List Node, maskedAll (maskedAll ns) = maskedAll ns
  | [] => rfl
  | n :: ns => by rw [maskedAll, maskedAll, masked_masked n, maskedAll_maskedAll ns]

end

theorem isEmpty_maskedAll (ns : List Node) : (maskedAll ns).isEmpty = ns.isEmpty := by
  cases ns <;> rfl

theorem maskedAll_append (a b : List Node) : maskedAll (a ++ b) = maskedAll a ++ maskedAll b := by
  induction a with
  | nil => rfl
  | cons n a ih => exact congrArg (n.masked :: ·) ih

/-- **Whatever is iterated over** is read without its values too. -/
theorem readItems_maskedFilter (strict : Bool) (path : String) (v : Value) :
    (readItems strict path v.maskedFilter).result.map maskedAll =
      (readItems strict path v).result.map maskedAll := by
  have hitems (xs : List Value) :
      ((readAll strict path 0 (maskedItems xs)).mapError Malformed.error).result.map maskedAll =
        ((readAll strict path 0 xs).mapError Malformed.error).result.map maskedAll := by
    rw [Report.mapError, readAll_maskedItems, Report.mapError]
    cases (readAll strict path 0 xs).result with
    | error m => rfl
    | ok ns => exact congrArg Except.ok (maskedAll_maskedAll ns)
  cases v with
  | list xs => exact hitems xs
  | tuple xs => exact hitems xs
  | set xs => exact hitems xs
  | frozenset xs => exact hitems xs
  | map es =>
    -- only the keys are iterated over
    have hkeys : (Value.map es).maskedFilter.items? = (Value.map es).items? := by
      show some ((es.map fun e => (e.1, Value.null)).map (·.1)) = some (es.map (·.1))
      rw [List.map_map]
      rfl
    rw [readItems, readItems, hkeys]
    rfl
  | _ => rfl

theorem equalities_masked (first : Bool) (es : Entries) :
    equalities first (es.map fun e => (e.1, .null)) = (equalities first es).map maskedAll := by
  induction es generalizing first with
  | nil => rfl
  | cons e es ih =>
    obtain ⟨k, v⟩ := e
    rw [List.map_cons, equalities, equalities, ih]
    cases (Check.name k).below (.key "field") with
    | issues found => rfl
    | ok field => cases equalities false es <;> rfl

/-- **A filter is taken** without its values too, in whichever form it is given. -/
theorem ofFilters_maskedFilter (strict : Bool) (v : Value) :
    (ofFilters strict v.maskedFilter).result.map maskedAll =
      (ofFilters strict v).result.map maskedAll := by
  cases v with
  | map es =>
    show (equalities true (es.map fun e => (e.1, .null))).map maskedAll =
      (equalities true es).map maskedAll
    rw [equalities_masked]
    -- the equalities of a mapping keep their values until they are masked
    cases equalities true es with
    | error e => rfl
    | ok ns => exact congrArg Except.ok (maskedAll_maskedAll ns)
  | list xs => exact readItems_maskedFilter strict rootPath (.list xs)
  | tuple xs => exact readItems_maskedFilter strict rootPath (.tuple xs)
  | set xs => exact readItems_maskedFilter strict rootPath (.set xs)
  | frozenset xs => exact readItems_maskedFilter strict rootPath (.frozenset xs)
  | _ => rfl

end Node

end BoundSql
