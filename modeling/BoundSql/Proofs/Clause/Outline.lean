import BoundSql.Proofs.Sql.Reading

/-!
# The outline of a filter

A filter tree is turned into the clause it stands for by recursion over the tree alone, without the
flat form and its pass: `Node.outline` leaves out the leaves with an unknown operator and the groups
nothing is left of, and numbers the leaves that are kept from left to right. The text and the values
of the clause are those of the outline, which `Clause.Rendering` proves of the pass.

* `Node.tests_outline` — the tests of an outline are the leaves that are kept, the `i`-th of them
  compared with the `i`-th parameter;
* `Node.outline_append` — the outline of siblings behind others;
* `Node.outline_proper` — where all siblings but the first are joined, so are those that are kept.
-/

namespace BoundSql

/-! ### Columns and operators -/

/-- A column as it is written: an empty table counts as none. -/
def Column.shown (c : Column) : Column := ⟨c.qualifier, c.name⟩

theorem Column.shown_table_ne (c : Column) : c.shown.table ≠ some "" := by
  intro h
  obtain ⟨-, hne⟩ := Option.filter_eq_some_iff.mp h
  exact absurd hne (by decide)

@[simp] theorem Column.sql_shown (c : Column) : c.shown.sql = c.sql := by
  have hq : c.shown.qualifier = c.qualifier := by
    simp [Column.shown, Column.qualifier, Option.filter_filter]
  unfold Column.sql
  rw [hq]
  rfl

/-- The form of the comparison a tag names, if it names one. -/
def Operator.formOf? (tag : String) : Option Form :=
  match (ofTag? tag).map form with
  | some (.membership negate) => some (.membership negate)
  | some .pattern => some .pattern
  | _ => (symbolOf? tag).map .symbol

/-- The tag of an operator names its form. -/
theorem Operator.formOf?_tag (o : Operator) : formOf? o.tag = some o.form := by
  cases o <;> rfl

/-- The phrase that a dialect writes a form as. -/
def Sql.Phrase.ofForm (d : Dialect) : Operator.Form → Phrase
  | .symbol sign => .symbol sign
  | .membership negate => .membership (if negate then "!=" else "=")
  | .pattern => .pattern d.patternOperator d.style.percentSign d.style.percentSign

/-- The sign an operator is written as is an operator for a reader too. -/
theorem Operator.isOperator_symbol? {o : Operator} {sign : String} (h : o.symbol? = some sign) :
    Sql.IsOperator sign := by
  cases o <;> cases h <;> exact fun _ => rfl

/-- A sign that a tag names is that of an operator. -/
theorem Operator.exists_symbol_of_formOf? {tag sign : String}
    (h : formOf? tag = some (.symbol sign)) : ∃ o : Operator, o.symbol? = some sign := by
  -- a tag that is neither a membership nor a pattern has the form of its symbol
  have hsymbol : symbolOf? tag = some sign := by
    unfold formOf? at h
    split at h
    · cases h
    · cases h
    · obtain ⟨s, hs, heq⟩ := Option.map_eq_some_iff.mp h
      cases heq
      exact hs
  obtain ⟨o, -, ho⟩ := Option.bind_eq_some_iff.mp hsymbol
  exact ⟨o, ho⟩

theorem Operator.isOperator_of_formOf? {tag sign : String}
    (h : formOf? tag = some (.symbol sign)) : Sql.IsOperator sign := by
  obtain ⟨o, ho⟩ := exists_symbol_of_formOf? h
  exact isOperator_symbol? ho

/-- A form that a tag names is written so that it can be read. -/
theorem Sql.Phrase.legible_ofForm {d : Dialect} (hd : IsOperator d.patternOperator) {tag : String}
    {f : Operator.Form} (h : Operator.formOf? tag = some f) : (ofForm d f).Legible := by
  cases f with
  | symbol sign => exact Operator.isOperator_of_formOf? h
  | membership negate =>
    cases negate with
    | true => exact fun _ => rfl
    | false => exact fun _ => rfl
  | pattern => exact hd

namespace Leaf

/-- The form of a leaf, if its operator is known. -/
def form? (l : Leaf) : Option Operator.Form := Operator.formOf? l.operator

/-- The column of a leaf. -/
def column (aliases : Aliases) (l : Leaf) : Column := (l.comparison aliases).column

/-- A leaf with its form, if it is kept. -/
def kept? (l : Leaf) : Option (Leaf × Operator.Form) := l.form?.map fun f => (l, f)

/-- The test of a leaf of the given form against the parameter of the given number. -/
def test (d : Dialect) (aliases : Aliases) (number : Nat) (l : Leaf × Operator.Form) : Sql.Test :=
  ⟨(l.1.column aliases).shown, .ofForm d l.2, number⟩

end Leaf

namespace Node

/-- **Induction over sibling nodes.** A property of lists of nodes holds if it holds of the empty
list and is handed on by a leaf in front and by a group in front, from the siblings inside the group
and those behind it. -/
@[elab_as_elim]
theorem forest_induction {motive : List Node → Prop} (nil : motive [])
    (leaf : ∀ l ns, motive ns → motive (.leaf l :: ns))
    (group : ∀ children j ns, motive children → motive ns → motive (.group children j :: ns)) :
    ∀ ns, motive ns
  | [] => nil
  | .leaf l :: ns => leaf l ns (forest_induction nil leaf group ns)
  | .group children j :: ns =>
    group children j ns (forest_induction nil leaf group children)
      (forest_induction nil leaf group ns)

/-! ### The leaves of a filter -/

mutual

/-- The leaves of a node from left to right. -/
def leaves : Node → List Leaf
  | leaf l => [l]
  | group children _ => leavesOf children

/-- The leaves of siblings from left to right. -/
def leavesOf : List Node → List Leaf
  | [] => []
  | n :: ns => n.leaves ++ leavesOf ns

end

/-- The leaves of siblings that are kept, from left to right. -/
def kept (ns : List Node) : List (Leaf × Operator.Form) := (leavesOf ns).filterMap Leaf.kept?

/-- The values of the leaves that are kept, from left to right. -/
def values (ns : List Node) : List Value := (kept ns).map (·.1.value)

@[simp] theorem length_values (ns : List Node) : (values ns).length = (kept ns).length :=
  List.length_map _

theorem leavesOf_append (a b : List Node) : leavesOf (a ++ b) = leavesOf a ++ leavesOf b := by
  induction a with
  | nil => rfl
  | cons n a ih =>
    show n.leaves ++ leavesOf (a ++ b) = n.leaves ++ leavesOf a ++ leavesOf b
    rw [ih, List.append_assoc]

theorem kept_append (a b : List Node) : kept (a ++ b) = kept a ++ kept b := by
  rw [kept, leavesOf_append, List.filterMap_append]
  rfl

theorem values_append (a b : List Node) : values (a ++ b) = values a ++ values b := by
  rw [values, kept_append, List.map_append]
  rfl

theorem kept_leaf_of_kept {l : Leaf} {f : Operator.Form} (h : l.form? = some f) (ns : List Node) :
    kept (leaf l :: ns) = (l, f) :: kept ns := by
  have hk : l.kept? = some (l, f) := by rw [Leaf.kept?, h]; rfl
  exact List.filterMap_cons_some hk

theorem kept_leaf_of_dropped {l : Leaf} (h : l.form? = none) (ns : List Node) :
    kept (leaf l :: ns) = kept ns := by
  have hk : l.kept? = none := by rw [Leaf.kept?, h]; rfl
  exact List.filterMap_cons_none hk

theorem kept_group_cons (children ns : List Node) (j : Option Joiner) :
    kept (group children j :: ns) = kept children ++ kept ns :=
  List.filterMap_append

theorem values_group_nil (children : List Node) (j : Option Joiner) :
    values [group children j] = values children := by
  rw [values, kept_group_cons]
  exact congrArg _ (List.append_nil _)

/-! ### The outline -/

end Node

/-- The term of a group, unless nothing is left in it. -/
def Sql.Term.group? (j : Option Joiner) : List Term → Option Term
  | [] => none
  | t :: ts => some (.group j (t :: ts))

namespace Node

mutual

/-- The term of a node, if anything of it is kept; `bound` values are bound before it. -/
def outlineOf (d : Dialect) (aliases : Aliases) (bound : Nat) : Node → Option Sql.Term
  | leaf l => l.kept?.map fun k => .test l.joiner (Leaf.test d aliases (bound + 1) k)
  | group children j => Sql.Term.group? j (outline d aliases bound children)

/-- The terms of siblings; `bound` values are bound before them. -/
def outline (d : Dialect) (aliases : Aliases) (bound : Nat) : List Node → List Sql.Term
  | [] => []
  | n :: ns =>
    (outlineOf d aliases bound n).toList ++ outline d aliases (bound + (kept [n]).length) ns

end

section Outline

variable (d : Dialect) (aliases : Aliases) (bound : Nat)

@[simp] theorem outline_nil : outline d aliases bound [] = [] := rfl

/-- A leaf that is kept is the next test. -/
theorem outline_leaf_of_kept {l : Leaf} {f : Operator.Form} (h : l.form? = some f)
    (ns : List Node) :
    outline d aliases bound (leaf l :: ns) =
      .test l.joiner (Leaf.test d aliases (bound + 1) (l, f)) ::
        outline d aliases (bound + 1) ns := by
  have hk : l.kept? = some (l, f) := by rw [Leaf.kept?, h]; rfl
  have hlength : (kept [leaf l]).length = 1 := by rw [kept_leaf_of_kept h]; rfl
  rw [outline, hlength, outlineOf, hk]
  rfl

/-- A leaf that is dropped leaves no trace. -/
theorem outline_leaf_of_dropped {l : Leaf} (h : l.form? = none) (ns : List Node) :
    outline d aliases bound (leaf l :: ns) = outline d aliases bound ns := by
  have hk : l.kept? = none := by rw [Leaf.kept?, h]; rfl
  have hlength : (kept [leaf l]).length = 0 := by rw [kept_leaf_of_dropped h]; rfl
  rw [outline, hlength, outlineOf, hk]
  rfl

theorem outline_group_cons (children ns : List Node) (j : Option Joiner) :
    outline d aliases bound (group children j :: ns) =
      (Sql.Term.group? j (outline d aliases bound children)).toList ++
        outline d aliases (bound + (kept children).length) ns := by
  have hkept : kept [group children j] = kept children := by
    rw [kept_group_cons]
    exact List.append_nil _
  rw [outline, hkept, outlineOf]

/-- Siblings behind others are numbered on from them. -/
theorem outline_append (a b : List Node) :
    outline d aliases bound (a ++ b) =
      outline d aliases bound a ++ outline d aliases (bound + (kept a).length) b := by
  induction a generalizing bound with
  | nil => rfl
  | cons n a ih =>
    have hkept : (kept (n :: a)).length = (kept [n]).length + (kept a).length := by
      rw [← List.length_append, ← kept_append]
      rfl
    rw [List.cons_append, outline, ih, outline, hkept, List.append_assoc, Nat.add_assoc]

/-- An outline is empty where no leaf is kept. -/
theorem outline_eq_nil (ns : List Node) : outline d aliases bound ns = [] ↔ kept ns = [] := by
  induction ns using forest_induction generalizing bound with
  | nil => exact Iff.intro (fun _ => rfl) fun _ => rfl
  | leaf l ns ih =>
    cases hf : l.form? with
    | none => rw [outline_leaf_of_dropped d aliases bound hf, kept_leaf_of_dropped hf, ih]
    | some f => simp [outline_leaf_of_kept d aliases bound hf, kept_leaf_of_kept hf]
  | group children j ns ihInner ih =>
    -- a group without a term is not written, and one with a term keeps a leaf
    rw [outline_group_cons, kept_group_cons, List.append_eq_nil_iff, List.append_eq_nil_iff, ih,
      ← ihInner bound]
    cases outline d aliases bound children with
    | nil => exact Iff.rfl
    | cons t ts => simp [Sql.Term.group?]

theorem tests_group? (j : Option Joiner) (ts : List Sql.Term) :
    Sql.tests (Sql.Term.group? j ts).toList = Sql.tests ts := by
  cases ts with
  | nil => rfl
  | cons t ts => exact List.append_nil _

/-- **The tests of an outline** are the leaves that are kept, from left to right, numbered on from
the values bound before. -/
theorem tests_outline (ns : List Node) :
    Sql.tests (outline d aliases bound ns) =
      (kept ns).mapIdx fun i k => Leaf.test d aliases (bound + i + 1) k := by
  induction ns using forest_induction generalizing bound with
  | nil => rfl
  | leaf l ns ih =>
    cases hf : l.form? with
    | none =>
      rw [outline_leaf_of_dropped d aliases bound hf, ih, kept_leaf_of_dropped hf]
    | some f =>
      -- the index of every later leaf grows by one, the number bound in front of it too
      rw [outline_leaf_of_kept d aliases bound hf, Sql.tests_test_cons, ih, kept_leaf_of_kept hf,
        List.mapIdx_cons]
      simp only [Nat.add_assoc, Nat.add_comm 1]
  | group children j ns ihInner ih =>
    rw [outline_group_cons, Sql.tests_append, tests_group?, ihInner, ih, kept_group_cons,
      List.mapIdx_append]
    simp only [Nat.add_assoc, Nat.add_comm (kept children).length]

/-- The parameters of an outline are numbered without a gap. -/
theorem numbers_outline (ns : List Node) :
    (Sql.tests (outline d aliases bound ns)).map Sql.Test.number =
      List.range' (bound + 1) (kept ns).length := by
  rw [tests_outline]
  refine List.ext_getElem (by simp) fun i hi _ => ?_
  simp [Leaf.test, Nat.add_right_comm]

end Outline

/-! ### What makes an outline readable -/

theorem form?_of_mem_kept {ns : List Node} {k : Leaf × Operator.Form} (h : k ∈ kept ns) :
    k.1.form? = some k.2 := by
  obtain ⟨l, -, hl⟩ := List.mem_filterMap.mp h
  obtain ⟨f, hf, rfl⟩ := Option.map_eq_some_iff.mp hl
  exact hf

/-- The tests of an outline are legible, whatever the fields of the leaves are. -/
theorem outline_legible {d : Dialect} (hd : Sql.IsOperator d.patternOperator) (aliases : Aliases)
    (bound : Nat) (ns : List Node) :
    ∀ t ∈ Sql.tests (outline d aliases bound ns), t.Legible := by
  rw [tests_outline]
  intro t ht
  obtain ⟨i, hi, rfl⟩ := List.mem_mapIdx.mp ht
  exact ⟨Column.shown_table_ne _,
    Sql.Phrase.legible_ofForm hd (form?_of_mem_kept (List.getElem_mem hi))⟩

mutual

/-- Whether inside a node all siblings but the first have a joiner. -/
def JoinedInside : Node → Prop
  | leaf _ => True
  | group children _ => WellJoined true children

/-- Whether all siblings but the first have a joiner, at any depth. -/
def WellJoined (first : Bool) : List Node → Prop
  | [] => True
  | n :: ns => (first = false → n.joiner ≠ none) ∧ n.JoinedInside ∧ WellJoined false ns

end

theorem joined_append (first : Bool) (a b : List Node) :
    WellJoined first (a ++ b) ↔ WellJoined first a ∧ WellJoined (first && a.isEmpty) b := by
  induction a generalizing first with
  | nil => simp [WellJoined]
  | cons n a ih =>
    rw [List.cons_append, WellJoined, ih, WellJoined, List.isEmpty_cons, Bool.and_false]
    simp [and_assoc]

/-- **Joined siblings leave a proper clause.** Where all siblings but the first have a joiner, so
have those that are kept. -/
theorem outline_proper (d : Dialect) (aliases : Aliases) (bound : Nat) {first : Bool}
    {ns : List Node} (h : WellJoined first ns) :
    Sql.Proper first (outline d aliases bound ns) := by
  induction ns using forest_induction generalizing bound first with
  | nil => trivial
  | leaf l ns ih =>
    obtain ⟨hj, -, hns⟩ := h
    cases hf : l.form? with
    | none =>
      -- the next sibling that is kept may come to stand first, and then needs no joiner
      rw [outline_leaf_of_dropped d aliases bound hf]
      exact (ih bound hns).anywhere first
    | some f =>
      rw [outline_leaf_of_kept d aliases bound hf]
      exact ⟨hj, trivial, ih _ hns⟩
  | group children j ns ihInner ih =>
    obtain ⟨hj, hchildren, hns⟩ := h
    have hinner := ihInner bound hchildren
    rw [outline_group_cons]
    cases hkept : outline d aliases bound children with
    | nil => exact (ih _ hns).anywhere first
    | cons t ts =>
      rw [hkept] at hinner
      exact ⟨hj, ⟨List.cons_ne_nil t ts, hinner⟩, ih _ hns⟩

end Node

end BoundSql
