import BoundSql.Filter.Read
import BoundSql.Proofs.Filter.Checked
import BoundSql.Proofs.Report

/-!
# What lenient reading salvages

A lenient reader keeps every raw node that is well formed once what is malformed below it is gone.
`Node.salvage` says so without a reader, by recursion over the data: it knows no paths, leaves no
notices and does not ask whether the reader is strict.

A raw node stands at a position, a list of indices into the raw data (`Node.itemAt`), and its path
is written from them (`Node.pathAt`). As positions count raw siblings, nothing that was dropped in
front of a node moves it.

Reading a node is reading its children and then putting them together (`Node.readOne_eq`), and only
the first half depends on strictness. So all is proved by one induction over raw siblings
(`Node.items_induction`):

* `Node.result_readAll` — what a lenient reader keeps;
* `Node.mem_notices_readAll` — what it leaves notices of;
* `Node.readAll_stops` — a strict reader stops at the first of them;
* `Node.strict_stops_where_lenient_drops` — all of it for a list of raw nodes.
-/

namespace BoundSql

/-- The value that passed a check. -/
def Checked.value? {α : Type} : Checked α → Option α
  | ok a => some a
  | issues _ => none

namespace Value

/-- The items of a list or tuple; nothing else can hold the children of a group. -/
def siblings? : Value → Option (List Value)
  | list xs | tuple xs => some xs
  | _ => none

/-- The raw children of a raw node. -/
def childItems : Value → List Value
  | map es => ((lookup "expressions" es).bind siblings?).getD []
  | _ => []

end Value

open Value

namespace Node

/-! ### What is kept -/

mutual

/-- **The node that is left of a raw one** when all that is malformed below it is gone; `none` if it
is malformed itself. -/
def salvage : Value → Option Node
  | .map es =>
    match salvageChildren es with
    | none => (Leaf.check es).value?.map leaf
    | some children => children.bind fun ns => (checkGroup (some (.ok ns)) es).value?
  | v => ofValue? v

/-- The children left among the entries of a mapping, if there are any to be found; no children at
all if they are no list. -/
def salvageChildren : Entries → Option (Option (List Node))
  | [] => none
  | (k, v) :: rest =>
    if k.isKey "expressions" then some (salvageList v) else salvageChildren rest

/-- The children left of a list. -/
def salvageList : Value → Option (List Node)
  | .list xs | .tuple xs => some (salvageAll xs)
  | _ => none

/-- The nodes left of raw siblings. -/
def salvageAll : List Value → List Node
  | [] => []
  | x :: xs => (salvage x).toList ++ salvageAll xs

end

/-- Siblings are salvaged one by one. -/
theorem salvageAll_eq (xs : List Value) : salvageAll xs = xs.filterMap salvage := by
  induction xs with
  | nil => rfl
  | cons x xs ih =>
    rw [salvageAll, ih]
    cases hx : salvage x with
    | none => rw [List.filterMap_cons_none hx]; rfl
    | some n => rw [List.filterMap_cons_some hx]; rfl

theorem salvageList_eq (v : Value) : salvageList v = v.siblings?.map salvageAll := by
  cases v <;> rfl

theorem salvageChildren_eq (es : Entries) :
    salvageChildren es = (lookup "expressions" es).map salvageList := by
  induction es with
  | nil => rfl
  | cons e es ih =>
    obtain ⟨k, v⟩ := e
    rw [salvageChildren, lookup, ih]
    split <;> rfl

/-! ### Positions -/

/-- The raw node at a position below another one, which itself is at the empty position. -/
def descendant (v : Value) : List Nat → Option Value
  | [] => some v
  | i :: rest => v.childItems[i]?.bind fun child => descendant child rest

/-- The raw node at a position among siblings: the index of one of them, then that of one of its
children, and so on. -/
def itemAt (xs : List Value) : List Nat → Option Value
  | [] => none
  | i :: rest => xs[i]?.bind fun x => descendant x rest

/-- The path of a position below the node at a path: at each level an index among the children. -/
def pathBelow (path : String) : List Nat → String
  | [] => path
  | i :: rest => pathBelow (path ++ ".expressions[" ++ toString i ++ "]") rest

/-- The path of a position among siblings on a path: the index of one of them in brackets, and then
the indices below it. -/
def pathAt (path : String) : List Nat → String
  | [] => path
  | i :: rest => pathBelow (path ++ "[" ++ toString i ++ "]") rest

/-- The children of a node are siblings on a path of their own. -/
theorem pathAt_children (path : String) (i : Nat) (rest : List Nat) :
    pathAt (path ++ ".expressions") (i :: rest) = pathBelow path (i :: rest) := by
  have hopen : path ++ ".expressions" ++ "[" = path ++ ".expressions[" := by
    rw [String.append_assoc]
    rfl
  rw [pathAt, pathBelow, hopen]

example : pathAt "filters" [3, 0, 2] = "filters[3].expressions[0].expressions[2]" := by
  decide +kernel

/-- A notice of a malformed node among siblings, the first of which stands at `index`. -/
def DropsAmong (path : String) (index : Nat) (xs : List Value) (n : Notice) : Prop :=
  ∃ i rest item, itemAt xs (i :: rest) = some item ∧ salvage item = none ∧
    n = .droppedNode (pathAt path ((index + i) :: rest)) item

/-- What is malformed among siblings is the first of them, or below it, or behind it. -/
theorem dropsAmong_cons {path : String} {index : Nat} {x : Value} {xs : List Value} {n : Notice} :
    DropsAmong path index (x :: xs) n ↔
      DropsAmong (itemPath path index ++ ".expressions") 0 x.childItems n ∨
      (salvage x = none ∧ n = .droppedNode (itemPath path index) x) ∨
      DropsAmong path (index + 1) xs n := by
  have hnext : ∀ i, index + 1 + i = index + (i + 1) := fun i => by omega
  constructor
  · -- a position is the first item, below it, or behind it
    rintro ⟨i, rest, item, hitem, hsalvage, rfl⟩
    cases i with
    | zero =>
      cases rest with
      | nil =>
        obtain rfl : x = item := Option.some.inj hitem
        exact .inr (.inl ⟨hsalvage, rfl⟩)
      | cons j rest =>
        exact .inl ⟨j, rest, item, hitem, hsalvage, by rw [Nat.zero_add, pathAt_children]; rfl⟩
    | succ i => exact .inr (.inr ⟨i, rest, item, hitem, hsalvage, by rw [hnext]⟩)
  · rintro (⟨j, rest, item, hitem, hsalvage, rfl⟩ | ⟨hsalvage, rfl⟩ |
      ⟨i, rest, item, hitem, hsalvage, rfl⟩)
    · exact ⟨0, j :: rest, item, hitem, hsalvage, by rw [Nat.zero_add, pathAt_children]; rfl⟩
    · exact ⟨0, [], x, rfl, hsalvage, rfl⟩
    · exact ⟨i + 1, rest, item, hitem, hsalvage, by rw [hnext]⟩

/-! ### Children first -/

theorem sizeOf_lookup {name : String} {es : Entries} {v : Value} (h : lookup name es = some v) :
    sizeOf v < sizeOf es := by
  induction es with
  | nil => cases h
  | cons e es ih =>
    obtain ⟨k, u⟩ := e
    rw [lookup] at h
    simp only [List.cons.sizeOf_spec, Prod.mk.sizeOf_spec]
    split at h
    · obtain rfl := Option.some.inj h
      omega
    · have hbehind := ih h
      omega

theorem sizeOf_siblings? {v : Value} {xs : List Value} (h : v.siblings? = some xs) :
    sizeOf xs < sizeOf v := by
  cases v with
  | list ys =>
    obtain rfl := Option.some.inj h
    simp
  | tuple ys =>
    obtain rfl := Option.some.inj h
    simp
  | _ => cases h

/-- Children are smaller than the node they belong to. -/
theorem sizeOf_childItems (v : Value) : sizeOf v.childItems ≤ sizeOf v := by
  have hnone : sizeOf ([] : List Value) ≤ sizeOf v := by cases v <;> simp <;> omega
  cases v with
  | map es =>
    cases hlist : (lookup "expressions" es).bind siblings? with
    | none => rwa [childItems, hlist]
    | some xs =>
      -- the children are smaller than their list, and the list than the entries
      obtain ⟨list, hlookup, hxs⟩ := Option.bind_eq_some_iff.mp hlist
      have hlt := Nat.lt_trans (sizeOf_siblings? hxs) (sizeOf_lookup hlookup)
      rw [childItems, hlist, map.sizeOf_spec]
      exact Nat.le_add_left_of_le (Nat.le_of_lt hlt)
  | _ => exact hnone

/-- **Induction over raw siblings**: from the children of the first and from those behind it. -/
@[elab_as_elim]
theorem items_induction {motive : List Value → Prop} (nil : motive [])
    (cons : ∀ x xs, motive x.childItems → motive xs → motive (x :: xs)) (xs : List Value) :
    motive xs := by
  -- the children of an item come before the items behind it, and both are smaller
  cases xs with
  | nil => exact nil
  | cons x xs =>
    exact cons x xs (items_induction nil cons x.childItems) (items_induction nil cons xs)
termination_by sizeOf xs
decreasing_by
  · have hchildren := sizeOf_childItems x
    simp only [List.cons.sizeOf_spec]
    omega
  · simp only [List.cons.sizeOf_spec]
    omega

/-- What comes of a raw node whose children have been read. -/
def putTogether (path : String) (v : Value) (children : List Node) : Except Malformed Node :=
  match v with
  | .map es =>
    match lookup "expressions" es with
    | none => checked .leaf path ((Leaf.check es).map leaf)
    | some v =>
      if v.siblings?.isSome then checked .group path (checkGroup (some (.ok children)) es)
      else .error ⟨"'expressions' must be a list", path⟩
  | v =>
    match ofValue? v with
    | some n => .ok n
    | none => .error ⟨"expected an object, got " ++ v.typeName, path⟩

theorem readList_eq (strict : Bool) (path : String) (v : Value) :
    readList strict path v =
      match v.siblings? with
      | some xs => readAll strict (path ++ ".expressions") 0 xs
      | none => .fail ⟨"'expressions' must be a list", path⟩ := by
  cases v <;> rfl

theorem readChildren_eq (strict : Bool) (path : String) (es : Entries) :
    readChildren strict path es = (lookup "expressions" es).map (readList strict path) := by
  induction es with
  | nil => rfl
  | cons e es ih =>
    obtain ⟨k, v⟩ := e
    rw [readChildren, lookup, ih]
    split <;> rfl

/-- **A node is read by reading its children** and putting it together. -/
theorem readOne_eq (strict : Bool) (path : String) (v : Value) :
    readOne strict path v = (readAll strict (path ++ ".expressions") 0 v.childItems).bind
      fun children => .ofExcept (putTogether path v children) := by
  -- a node without a list of children reads no children
  have hnone : ∀ f : List Node → Except Malformed Node,
      ((readAll strict (path ++ ".expressions") 0 []).bind fun children => .ofExcept (f children)) =
        .ofExcept (f []) := fun _ => Report.ok_bind _ _
  cases v with
  | map es =>
    rw [readOne, readChildren_eq, childItems]
    cases hlookup : lookup "expressions" es with
    | none =>
      show _ = (readAll strict (path ++ ".expressions") 0 []).bind _
      rw [hnone, putTogether, hlookup]
      rfl
    | some list =>
      -- a list of children that is none fails before any of them is read
      simp only [Option.map_some, readList_eq, Option.bind_some, putTogether, hlookup]
      cases list.siblings? with
      | none =>
        show (Report.fail _).bind _ = (readAll strict (path ++ ".expressions") 0 []).bind _
        rw [hnone, Report.fail_bind]
        rfl
      | some xs => rfl
  | record type fields =>
    show _ = (readAll strict (path ++ ".expressions") 0 []).bind _
    rw [hnone, putTogether, readOne]
    · cases ofValue? (.record type fields) <;> rfl
    all_goals
      intro es h
      cases h
  | _ =>
    show _ = (readAll strict (path ++ ".expressions") 0 []).bind _
    rw [hnone]
    rfl

theorem toOption_checked (m : Model) (path : String) (c : Checked Node) :
    (checked m path c).toOption = c.value? := by
  cases c <;> rfl

/-- Salvaging a node is putting it together from what is left of its children, on any path. -/
theorem salvage_eq (path : String) (v : Value) :
    salvage v = (putTogether path v (salvageAll v.childItems)).toOption := by
  cases v with
  | map es =>
    rw [salvage, salvageChildren_eq, childItems, putTogether]
    -- without children the data is checked as a leaf, with them as a group
    cases lookup "expressions" es with
    | none =>
      rw [toOption_checked]
      cases Leaf.check es <;> rfl
    | some list =>
      simp only [Option.map_some, salvageList_eq, Option.bind_some]
      cases list.siblings? with
      | none => rfl
      | some xs => exact (toOption_checked _ _ _).symm
  | record type fields =>
    rw [salvage, putTogether]
    · cases ofValue? (.record type fields) <;> rfl
    all_goals
      intro es h
      cases h
  | _ => rfl

theorem path_of_checked {m : Model} {path : String} {c : Checked Node} {e : Malformed}
    (h : checked m path c = .error e) : e.path = path := by
  cases c with
  | ok n => cases h
  | issues found =>
    cases h
    rfl

/-- What is wrong with a node itself is reported on its own path. -/
theorem path_of_putTogether {path : String} {v : Value} {children : List Node} {e : Malformed}
    (h : putTogether path v children = .error e) : e.path = path := by
  unfold putTogether at h
  split at h
  · -- the data of a leaf or a group is checked, or its list of children is none
    split at h
    · exact path_of_checked h
    · split at h
      · exact path_of_checked h
      · cases h
        rfl
  · split at h
    · cases h
    · cases h
      rfl

/-! ### What a lenient reader keeps and drops -/

/-- One of siblings, read by a lenient reader: the notices of its children, and one of its own where
nothing can be salvaged. -/
theorem keepOrDrop_readOne {path : String} {x : Value}
    (h : (readAll false (path ++ ".expressions") 0 x.childItems).result =
      .ok (salvageAll x.childItems)) :
    keepOrDrop false path x (readOne false path x) =
      ⟨(readAll false (path ++ ".expressions") 0 x.childItems).notices ++
        (if salvage x = none then [.droppedNode path x] else []), .ok (salvage x)⟩ := by
  -- a lenient reader gets past the children, so only putting together can fail
  have hone : readOne false path x =
      ⟨(readAll false (path ++ ".expressions") 0 x.childItems).notices,
        putTogether path x (salvageAll x.childItems)⟩ := by
    rw [readOne_eq, Report.bind_of_ok h, Report.after, Report.ofExcept, List.append_nil]
  rw [hone, salvage_eq path, keepOrDrop]
  cases putTogether path x (salvageAll x.childItems) with
  | ok n => rw [Except.toOption, if_neg (Option.some_ne_none n), List.append_nil]
  | error e => rfl

/-- Siblings, read by a lenient reader. -/
theorem readAll_cons {path : String} {index : Nat} {x : Value} {xs : List Value}
    (h : (readAll false (itemPath path index ++ ".expressions") 0 x.childItems).result =
      .ok (salvageAll x.childItems)) :
    readAll false path index (x :: xs) = .after
      ((readAll false (itemPath path index ++ ".expressions") 0 x.childItems).notices ++
        (if salvage x = none then [.droppedNode (itemPath path index) x] else []))
      ((readAll false path (index + 1) xs).map fun rest => (salvage x).toList ++ rest) := by
  rw [readAll, keepOrDrop_readOne h, Report.bind_of_ok rfl]
  cases salvage x <;> rfl

/-- **A lenient reader never fails**: it keeps what can be salvaged. -/
theorem result_readAll (path : String) (index : Nat) (xs : List Value) :
    (readAll false path index xs).result = .ok (salvageAll xs) := by
  induction xs using items_induction generalizing path index with
  | nil => rfl
  | cons x xs ihChildren ih =>
    rw [readAll_cons (ihChildren _ 0)]
    exact Report.result_map_eq_ok.mpr ⟨salvageAll xs, ih path (index + 1), rfl⟩

/-- **A lenient reader leaves notices** of what is malformed, and of nothing else. -/
theorem mem_notices_readAll (path : String) (index : Nat) (xs : List Value) (n : Notice) :
    n ∈ (readAll false path index xs).notices ↔ DropsAmong path index xs n := by
  induction xs using items_induction generalizing path index with
  | nil =>
    refine iff_of_false (fun h => nomatch h) ?_
    rintro ⟨i, rest, item, hitem, -, -⟩
    cases hitem
  | cons x xs ihChildren ih =>
    -- the notices come from below the item, from the item and from behind it
    have hown : n ∈ (if salvage x = none then [Notice.droppedNode (itemPath path index) x] else [])
        ↔ salvage x = none ∧ n = .droppedNode (itemPath path index) x := by
      split
      · next h => simp [h]
      · next h => simp [h]
    have hnotices : (readAll false path index (x :: xs)).notices =
        (readAll false (itemPath path index ++ ".expressions") 0 x.childItems).notices ++
          (if salvage x = none then [.droppedNode (itemPath path index) x] else []) ++
          (readAll false path (index + 1) xs).notices := by
      rw [readAll_cons (result_readAll _ 0 _)]
      rfl
    rw [hnotices, List.mem_append, List.mem_append, hown, ihChildren, ih, dropsAmong_cons, or_assoc]

end Node

/-! ### Where a strict reader stops -/

/-- **A strict report stops** where the lenient one of the same data leaves its first notice. Where
that leaves none, the two are the same; what is wrong then is wrong at the given path. -/
inductive Report.Stops {α : Type} (path : String) :
    Report Malformed α → Report Malformed α → Prop
  | quiet {r : Except Malformed α} : (∀ e, r = .error e → e.path = path) →
      Stops path (.ofExcept r) (.ofExcept r)
  | dropped (e : Malformed) (item : Value) (later : List Notice) (r : Except Malformed α) :
      Stops path (.fail e) ⟨.droppedNode e.path item :: later, r⟩

namespace Report.Stops

variable {α β : Type} {path : String} {strict lenient : Report Malformed α}

theorem ok (a : α) : Stops path (.ok a) (.ok a) := .quiet fun _ h => nomatch h

theorem bind (h : Stops path strict lenient) {f g : α → Report Malformed β}
    (hfg : ∀ a, Stops path (f a) (g a)) : Stops path (strict.bind f) (lenient.bind g) := by
  cases h with
  | @quiet r hpath =>
    cases r with
    | ok a =>
      rw [ofExcept_ok_bind, ofExcept_ok_bind]
      exact hfg a
    | error e => exact .quiet fun e' he => hpath e' (by cases he; rfl)
  | dropped e item later r =>
    rw [fail_bind]
    -- whatever follows, the first notice stays the first
    cases r with
    | ok a => exact .dropped e item (later ++ (g a).notices) (g a).result
    | error e' => exact .dropped e item later (.error e')

theorem map (h : Stops path strict lenient) (f : α → β) :
    Stops path (strict.map f) (lenient.map f) := by
  rw [← bind_ok, ← bind_ok]
  exact h.bind fun a => ok (f a)

/-- A node that stops a strict reader at its own path, or below it, does so among its siblings. -/
theorem keepOrDrop {strict lenient : Report Malformed Node} (h : Stops path strict lenient)
    (item : Value) (here : String) :
    Stops here (Node.keepOrDrop true path item strict)
      (Node.keepOrDrop false path item lenient) := by
  cases h with
  | @quiet r hpath =>
    -- nothing was dropped below: the item itself is the first to be, or is kept
    cases r with
    | ok n => exact ok (some n)
    | error e =>
      have hfirst := hpath e rfl
      subst hfirst
      exact .dropped e item [] (.ok none)
  | dropped e first later r =>
    -- something was, and what becomes of the item comes behind it
    cases r with
    | ok n => exact .dropped e first later (.ok (some n))
    | error e' => exact .dropped e first (later ++ [.droppedNode path item]) (.ok none)

end Report.Stops

namespace Node

open Report

/-- **A strict reader stops where a lenient one first drops something**, at any depth. A lenient one
does not fail, so the path of its own failure is free. -/
theorem readAll_stops (path : String) (index : Nat) (xs : List Value) (here : String) :
    Stops here (readAll true path index xs) (readAll false path index xs) := by
  induction xs using items_induction generalizing path index here with
  | nil => exact .ok []
  | cons x xs ihChildren ih =>
    have hone : Stops (itemPath path index) (readOne true (itemPath path index) x)
        (readOne false (itemPath path index) x) := by
      rw [readOne_eq, readOne_eq]
      exact (ihChildren _ 0 _).bind fun children => .quiet fun e he => path_of_putTogether he
    rw [readAll, readAll]
    exact (hone.keepOrDrop x here).bind fun kept => (ih path (index + 1) here).map _

/-! ### Raw nodes read both ways -/

/-- A group is left with the children that are left of its own, in their order. -/
theorem children_of_salvage {es : Entries} {children : List Node} {j : Option Joiner}
    (h : salvage (.map es) = some (.group children j)) :
    children = (childItems (.map es)).filterMap salvage := by
  rw [salvage, salvageChildren_eq] at h
  rw [childItems, ← salvageAll_eq]
  cases hlookup : lookup "expressions" es with
  | none =>
    -- without a list of children the node would be a leaf
    rw [hlookup] at h
    obtain ⟨l, -, hl⟩ := Option.map_eq_some_iff.mp h
    cases hl
  | some v =>
    rw [hlookup, Option.map_some] at h
    obtain ⟨ns, hns, hgroup⟩ := Option.bind_eq_some_iff.mp h
    rw [salvageList_eq] at hns
    obtain ⟨xs, hxs, rfl⟩ := Option.map_eq_some_iff.mp hns
    cases hcheck : checkGroup (some (.ok (salvageAll xs))) es with
    | issues found =>
      rw [hcheck] at hgroup
      cases hgroup
    | ok n =>
      rw [hcheck] at hgroup
      -- the check of a group takes the children as they are
      obtain ⟨-, j', -, hn⟩ := checkGroup_eq_ok.mp hcheck
      obtain rfl : n = .group children j := Option.some.inj hgroup
      rw [Option.bind_some, hxs]
      exact (group.inj hn).1.symm

/-- What is malformed among all siblings, by the position it stands at. -/
theorem dropsAmong_zero {path : String} {xs : List Value} {n : Notice} :
    DropsAmong path 0 xs n ↔ ∃ position item, itemAt xs position = some item ∧
      salvage item = none ∧ n = .droppedNode (pathAt path position) item := by
  constructor
  · rintro ⟨i, rest, item, hitem, hsalvage, hn⟩
    exact ⟨i :: rest, item, hitem, hsalvage, by rwa [Nat.zero_add] at hn⟩
  · rintro ⟨position, item, hitem, hsalvage, hn⟩
    -- no item stands at the position of all siblings
    cases position with
    | nil => cases hitem
    | cons i rest => exact ⟨i, rest, item, hitem, hsalvage, by rwa [Nat.zero_add]⟩

/-- Either both readers agree and nothing is dropped, or the strict one stops on the path of the
first notice. -/
theorem quiet_or_stopped (path : String) (xs : List Value) :
    let strict := readItems true path (.list xs)
    let lenient := readItems false path (.list xs)
    (lenient.notices = [] ∧ strict.result = lenient.result) ∨
      ∃ (m : Malformed) (item : Value), lenient.notices.head? = some (.droppedNode m.path item) ∧
        strict.result = .error m.error := by
  intro strict lenient
  have hstops := readAll_stops path 0 xs path
  have hstrict : strict = (readAll true path 0 xs).mapError Malformed.error := rfl
  have hlenient : lenient = (readAll false path 0 xs).mapError Malformed.error := rfl
  rw [hstrict, hlenient]
  -- of the two runs only how they relate is needed
  generalize readAll true path 0 xs = readStrict at hstops ⊢
  generalize readAll false path 0 xs = readLenient at hstops ⊢
  cases hstops with
  | quiet => exact .inl ⟨rfl, rfl⟩
  | dropped m item later r => exact .inr ⟨m, item, rfl, rfl⟩

/-- **Strict reading fails exactly where lenient reading first drops something.** For any list of
raw nodes and any path to it:

* a lenient reader does not fail; it keeps every node that can be salvaged, in order;
* it leaves a notice of every raw node that is malformed itself, wherever it stands, with the path
  of its position in the raw data, and of nothing else;
* a strict reader fails exactly if there is such a notice,
* and then with a malformed filter on the path of the first one;
* without a notice both have the same nodes;
* a group that is kept has exactly the children that can be salvaged, in order.
-/
theorem strict_stops_where_lenient_drops (path : String) (xs : List Value) :
    let strict := readItems true path (.list xs)
    let lenient := readItems false path (.list xs)
    lenient.result = .ok (xs.filterMap salvage) ∧
    (∀ n, n ∈ lenient.notices ↔ ∃ position item, itemAt xs position = some item ∧
      salvage item = none ∧ n = .droppedNode (pathAt path position) item) ∧
    ((∃ e, strict.result = .error e) ↔ lenient.notices ≠ []) ∧
    (∀ e, strict.result = .error e → ∃ text here item,
      e = .build (.malformedFilter text (some here)) ∧
      lenient.notices.head? = some (.droppedNode here item)) ∧
    (lenient.notices = [] → strict.result = lenient.result) ∧
    ∀ es children j, salvage (.map es) = some (.group children j) →
      children = (childItems (.map es)).filterMap salvage := by
  intro strict lenient
  have hresult : lenient.result = .ok (xs.filterMap salvage) := by
    rw [← salvageAll_eq]
    exact Report.result_mapError_eq_ok.mpr (result_readAll path 0 xs)
  have hnotices : ∀ n, n ∈ lenient.notices ↔ ∃ position item, itemAt xs position = some item ∧
      salvage item = none ∧ n = .droppedNode (pathAt path position) item := by
    intro n
    exact (mem_notices_readAll path 0 xs n).trans dropsAmong_zero
  -- the two readers agree, or the strict one stops where the first notice is
  have hcases := quiet_or_stopped path xs
  refine ⟨hresult, hnotices, ?_, ?_, ?_, fun es children j => children_of_salvage⟩
  · rcases hcases with ⟨hquiet, hsame⟩ | ⟨m, item, hhead, herror⟩
    · rw [hsame, hresult]
      exact iff_of_false (fun ⟨e, he⟩ => nomatch he) fun hne => hne hquiet
    · refine iff_of_true ⟨m.error, herror⟩ fun hnil => ?_
      rw [hnil] at hhead
      cases hhead
  · intro e he
    rcases hcases with ⟨-, hsame⟩ | ⟨m, item, hhead, herror⟩
    · rw [hsame, hresult] at he
      cases he
    · obtain rfl := Except.error.inj (herror.symm.trans he)
      exact ⟨m.text, m.path, item, rfl, hhead⟩
  · -- without a notice there is none that the strict reader could have stopped at
    intro hquiet
    rcases hcases with ⟨-, hsame⟩ | ⟨m, item, hhead, -⟩
    · exact hsame
    · rw [hquiet] at hhead
      cases hhead

end Node

end BoundSql
