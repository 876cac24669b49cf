import BoundSql.Proofs.Clause.Comparison

/-!
# Membership in array columns

A membership test is `x op ANY (array)`: it is true if `x op e` is for some element `e`. With `=`
that says that the value is among the elements. With `!=` it says that some element is another, and
that is not the opposite: an array with the value and another element passes both tests, an empty
one neither. The opposite would be `x != ALL (array)`.

* `Sql.exists_ne_iff_not_mem_iff` — on which arrays the two tests exclude each other;
* `Compiler.excludes_negates_iff` — the same of what is compiled for the two operators;
* `Compiler.excludes_with_includes` — an array that passes both.
-/

namespace BoundSql

namespace Sql

/-! ### Truth of membership tests -/

/-- What membership tests are evaluated on: the elements of the array columns of a row, none of them
null, and the element that a bound value is. -/
structure Arrays (α : Type) where
  elements : Column → List α
  ofValue : Value → α

variable {α : Type} [DecidableEq α]

/-- The comparison of two elements that a sign stands for, of the signs that need equality alone. -/
def equality? (sign : String) : Option (α → α → Bool) :=
  if sign = "=" then some fun x e => x == e
  else if sign = "!=" then some fun x e => x != e
  else none

/-- **Whether a membership test is true**: `x op ANY (array)` is if `x op e` is for some element `e`
of the array. Other tests, and tests without a value, are not evaluated. -/
def Test.isAny? (a : Arrays α) (values : Nat → Option Value) (t : Test) : Option Bool :=
  match t.phrase with
  | .membership sign =>
    (equality? sign).bind fun compare =>
      (values t.number).map fun v => (a.elements t.column).any (compare (a.ofValue v))
  | _ => none

section

variable {values : Nat → Option Value} {v : Value} {number : Nat}

theorem isAny?_of_sign (a : Arrays α) (hv : values number = some v) {sign : String}
    {compare : α → α → Bool} (hsign : equality? sign = some compare) (column : Column) :
    Test.isAny? a values ⟨column, .membership sign, number⟩ =
      some ((a.elements column).any (compare (a.ofValue v))) := by
  have heval : Test.isAny? a values ⟨column, .membership sign, number⟩ =
      (equality? sign).bind fun compare =>
        (values number).map fun v => (a.elements column).any (compare (a.ofValue v)) := rfl
  rw [heval, hsign, hv]
  rfl

/-- With `=` the value is among the elements. -/
theorem isAny?_includes (a : Arrays α) (hv : values number = some v) (column : Column) :
    Test.isAny? a values ⟨column, .membership "=", number⟩ =
      some (decide (a.ofValue v ∈ a.elements column)) := by
  refine (isAny?_of_sign a hv rfl column).trans (congrArg some ?_)
  rw [List.any_beq, List.contains_eq_mem]

/-- With `!=` some element is another. -/
theorem isAny?_excludes (a : Arrays α) (hv : values number = some v) (column : Column) :
    Test.isAny? a values ⟨column, .membership "!=", number⟩ =
      some (decide (∃ e ∈ a.elements column, a.ofValue v ≠ e)) := by
  refine (isAny?_of_sign a hv rfl column).trans (congrArg some ?_)
  simp [List.any_eq]

end

omit [DecidableEq α] in
/-- **Where the two tests exclude each other**: on arrays that are not empty, and have no other
element beside the value if they have the value. -/
theorem exists_ne_iff_not_mem_iff (x : α) (array : List α) :
    ((∃ e ∈ array, x ≠ e) ↔ x ∉ array) ↔ array ≠ [] ∧ (x ∈ array → ∀ e ∈ array, x = e) := by
  constructor
  · intro h
    constructor
    · -- an empty array passes neither test
      rintro rfl
      obtain ⟨e, he, -⟩ := h.mpr List.not_mem_nil
      exact List.not_mem_nil he
    · intro hx e he
      by_cases heq : x = e
      · exact heq
      · exact absurd hx (h.mp ⟨e, he, heq⟩)
  · rintro ⟨hne, honly⟩
    constructor
    · rintro ⟨e, he, hother⟩ hx
      exact hother (honly hx e he)
    · intro hx
      -- whatever is in the array is another element
      obtain ⟨e, rest, rfl⟩ := List.exists_cons_of_ne_nil hne
      have he : e ∈ e :: rest := List.mem_cons_self
      exact ⟨e, he, fun heq => hx (heq ▸ he)⟩

end Sql

/-! ### What is compiled -/

namespace Compiler

/-- A store with array columns has both memberships. -/
theorem supports_membership {d : Dialect} (hmembership : d.hasMembership = true) (negate : Bool) :
    d.Supports (.membership negate) where
  membership _ _ := hmembership
  legible := by
    cases negate with
    | true => exact fun _ => rfl
    | false => exact fun _ => rfl

/-- **When a leaf that excludes is the opposite of one that includes.** For a store with array
columns, any field and value, at any place of a filter, and any array without nulls:

* both leaves are compiled, and what they are compiled to reads as one membership test each;
* the one that includes is true exactly if the value is among the elements, the one that excludes
  exactly if some element is another;
* so the one is true exactly where the other is false if the array is not empty and has no other
  element beside the value if it has the value, and on no other array.
-/
theorem excludes_negates_iff {c : Compiler} (hmembership : c.dialect.hasMembership = true)
    {α : Type} [DecidableEq α] (a : Sql.Arrays α) (offset : Nat) (earlier later : List Value)
    (field : String) (v : Value) (j : Option Joiner) :
    let compiled (o : Operator) := (c.settings offset).comparison earlier.length
      (Leaf.comparison c.aliases ⟨field, o.tag, v, j⟩)
    let values := Sql.argument offset (earlier ++ v :: later)
    let column := (Column.resolve field c.aliases).shown
    let array := a.elements column
    let within : Sql.Test := ⟨column, .membership "=", offset + earlier.length + 1⟩
    let outside : Sql.Test := ⟨column, .membership "!=", offset + earlier.length + 1⟩
    (∃ text, compiled .includes = .ok (some text) ∧
      Sql.read (offset + earlier.length) text = some [.test none within]) ∧
    (∃ text, compiled .excludes = .ok (some text) ∧
      Sql.read (offset + earlier.length) text = some [.test none outside]) ∧
    within.isAny? a values = some (decide (a.ofValue v ∈ array)) ∧
    outside.isAny? a values = some (decide (∃ e ∈ array, a.ofValue v ≠ e)) ∧
    ((outside.isAny? a values = some true ↔ within.isAny? a values = some false) ↔
      array ≠ [] ∧ (a.ofValue v ∈ array → ∀ e ∈ array, a.ofValue v = e)) := by
  intro compiled values column array within outside
  -- the placeholder of either test stands for the value: it has the next number
  have hvalue : values (offset + earlier.length + 1) = some v :=
    Sql.argument_append_cons offset earlier later v
  have hwithin : within.isAny? a values = some (decide (a.ofValue v ∈ array)) :=
    Sql.isAny?_includes a hvalue column
  have houtside : outside.isAny? a values = some (decide (∃ e ∈ array, a.ofValue v ≠ e)) :=
    Sql.isAny?_excludes a hvalue column
  refine ⟨?_, ?_, hwithin, houtside, ?_⟩
  · have hform : (⟨field, Operator.includes.tag, v, j⟩ : Leaf).form? = some (.membership false) :=
      rfl
    exact c.comparison_reads offset earlier.length hform (supports_membership hmembership false)
  · have hform : (⟨field, Operator.excludes.tag, v, j⟩ : Leaf).form? = some (.membership true) :=
      rfl
    exact c.comparison_reads offset earlier.length hform (supports_membership hmembership true)
  · -- what is left is a fact about the elements alone
    rw [← Sql.exists_ne_iff_not_mem_iff, houtside, hwithin]
    simp only [Option.some_inj, decide_eq_true_eq, decide_eq_false_iff_not]

/-! ### Tags -/

/-- A row that has the same texts in every array column. -/
def tagged (tags : List String) : Sql.Arrays (Option String) :=
  ⟨fun _ => tags.map some, Value.asText?⟩

/-- The leaf that compares the tags with one tag. -/
def tagLeaf (o : Operator) : Leaf := ⟨"tags", o.tag, .text "x", none⟩

/-- The test that the tag is among the tags. -/
def hasTag : Sql.Test := ⟨⟨none, "tags"⟩, .membership "=", 1⟩

/-- The test that is compiled for the tag being left out. -/
def lacksTag : Sql.Test := ⟨⟨none, "tags"⟩, .membership "!=", 1⟩

/-- Among other tags alone the one test is the opposite of the other. -/
theorem excludes_negates_iff_of_other_tags :
    let values := Sql.argument 0 [.text "x"]
    let row := tagged ["y", "z"]
    ({} : Compiler).dialect.hasMembership = true ∧
    (({} : Compiler).settings 0).comparison 0 ((tagLeaf .excludes).comparison []) =
      .ok (some "$1 != ANY(\"tags\")") ∧
    (lacksTag.isAny? row values = some true ↔ hasTag.isAny? row values = some false) := by
  intro values row
  have hmembership : ({} : Compiler).dialect.hasMembership = true := rfl
  obtain ⟨-, -, -, -, hiff⟩ :=
    excludes_negates_iff hmembership row 0 [] [] "tags" (.text "x") none
  have hother : row.ofValue (.text "x") ∉ row.elements ⟨none, "tags"⟩ := by decide
  -- the array is not empty, and the value is not in it
  refine ⟨hmembership, by rfl, hiff.mpr ⟨?_, ?_⟩⟩
  · exact List.cons_ne_nil _ _
  · intro hmem
    exact absurd hmem hother

/-- **Excluding is not the opposite of including.** A row that has the tag and another one passes
both filters, and a row without tags passes neither. -/
theorem excludes_with_includes :
    let values := Sql.argument 0 [.text "x"]
    let clause (o : Operator) := (({} : Compiler).select {} (.ofNodes [.leaf (tagLeaf o)])).result
    clause .includes =
      .ok ⟨.int standardLimit, .int 0, "", "WHERE $1 = ANY(\"tags\")", [.text "x"]⟩ ∧
    clause .excludes =
      .ok ⟨.int standardLimit, .int 0, "", "WHERE $1 != ANY(\"tags\")", [.text "x"]⟩ ∧
    Sql.read 0 "WHERE $1 = ANY(\"tags\")" = some [.test none hasTag] ∧
    Sql.read 0 "WHERE $1 != ANY(\"tags\")" = some [.test none lacksTag] ∧
    (hasTag.isAny? (tagged ["x", "y"]) values = some true ∧
      lacksTag.isAny? (tagged ["x", "y"]) values = some true) ∧
    hasTag.isAny? (tagged []) values = some false ∧
      lacksTag.isAny? (tagged []) values = some false := by
  intro values clause
  exact ⟨by rfl, by rfl, by rfl, by rfl, by decide, by decide⟩

end Compiler

end BoundSql
