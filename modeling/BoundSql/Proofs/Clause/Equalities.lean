import BoundSql.Proofs.Clause.Compiled
import BoundSql.Proofs.Filter.Checked
import BoundSql.Proofs.Related

/-!
# Equalities

A mapping of fields to values is a filter: each of its entries is an equality, and all of them have
to hold. Every store has equalities, so none of them is ever refused or dropped, and the clause can
be written down at once.

* `Node.conjunction` — the nodes that fields and values stand for;
* `Node.equalities_eq` — a mapping has these nodes;
* `Compiler.filter_mapping` — what a mapping is compiled to.
-/

namespace BoundSql

/-- An entry of a mapping names a field: its key is a text, which is not empty. -/
structure NamesField (e : Value × Value) (field : String) : Prop where
  key : e.1.asText? = some field
  ne_empty : field ≠ ""

/-- Keys that are names name fields. -/
theorem exists_fields {es : Entries} (names : ∀ e ∈ es, ∃ s, e.1.asText? = some s ∧ s ≠ "") :
    ∃ fields, List.Forall₂ NamesField es fields := by
  refine exists_forall₂ fun e he => ?_
  obtain ⟨field, hkey, hne⟩ := names e he
  exact ⟨field, hkey, hne⟩

/-- The text of an equality of a field with the parameter of the given number. -/
def Compiler.equality (c : Compiler) (number : Int) (field : String) : String :=
  (Column.resolve field c.aliases).sql ++ " = " ++ c.dialect.placeholder number

namespace Node

/-! ### The nodes of a mapping -/

/-- Equalities of fields with values; all but the first are joined by `AND`. -/
def conjunction (first : Bool) : List (String × Value) → List Node
  | [] => []
  | (field, v) :: rest => equals first field v :: conjunction false rest

/-- The entries of a mapping as fields with values. -/
def fieldValues (es : Entries) (fields : List String) : List (String × Value) :=
  fields.zip (es.map (·.2))

theorem map_fst_fieldValues {es : Entries} {fields : List String}
    (h : List.Forall₂ NamesField es fields) : (fieldValues es fields).map (·.1) = fields :=
  List.map_fst_zip (Nat.le_of_eq (by rw [List.length_map, h.length_eq]))

theorem map_snd_fieldValues {es : Entries} {fields : List String}
    (h : List.Forall₂ NamesField es fields) : (fieldValues es fields).map (·.2) = es.map (·.2) :=
  List.map_snd_zip (Nat.le_of_eq (by rw [List.length_map, h.length_eq]))

/-- **A mapping has the nodes of its fields and values**, one for each entry. -/
theorem equalities_eq {es : Entries} {fields : List String}
    (h : List.Forall₂ NamesField es fields) (first : Bool) :
    equalities first es = .ok (conjunction first (fieldValues es fields)) := by
  induction h generalizing first with
  | nil => rfl
  | @cons e field es fields hfield _ ih =>
    obtain ⟨k, v⟩ := e
    rw [equalities, Check.name_of_asText? hfield.key hfield.ne_empty]
    show (equalities false es).map _ = _
    rw [ih]
    rfl

/-! ### What equalities are compiled to -/

variable {ps : List (String × Value)}

/-- The form of an equality is known. -/
theorem formOf?_eq : Operator.formOf? Operator.eq.tag = some (.symbol "=") := by
  decide

theorem form?_of_mem_conjunction {first : Bool} {l : Leaf}
    (h : l ∈ leavesOf (conjunction first ps)) : l.form? = some (.symbol "=") := by
  induction ps generalizing first with
  | nil => cases h
  | cons p ps ih =>
    rcases List.mem_cons.mp h with rfl | h
    · exact formOf?_eq
    · exact ih h

/-- **All values are bound**, in the order of the entries. -/
theorem values_conjunction (first : Bool) : values (conjunction first ps) = ps.map (·.2) := by
  induction ps generalizing first with
  | nil => rfl
  | cons p ps ih =>
    have hkept := kept_leaf_of_kept
      (l := ⟨p.1, Operator.eq.tag, p.2, if first then none else some .and⟩) formOf?_eq
      (conjunction false ps)
    have hvalues : values (conjunction first (p :: ps)) =
        p.2 :: values (conjunction false ps) := congrArg (List.map _) hkept
    rw [hvalues, ih, List.map_cons]

end Node

namespace Compiler

variable (c : Compiler)

/-- The test of an equality is written as its text. -/
theorem write_test_equality (number : Nat) (l : Leaf) :
    Sql.write c.dialect.style (Leaf.test c.dialect c.aliases number (l, .symbol "=")).pieces =
      c.equality number l.field := by
  have hsign : " = " = " " ++ "=" ++ " " := by decide
  have hcolumn : l.column c.aliases = Column.resolve l.field c.aliases := rfl
  rw [write_test, equality, hsign, hcolumn]
  simp only [String.append_assoc]

/-- An equality in front of others is written in front of what they are written as. -/
theorem write_equality (bound : Nat) (first : Bool) (p : String × Value)
    (ps : List (String × Value)) :
    Sql.write c.dialect.style (Sql.pieces first
        (Node.outline c.dialect c.aliases bound (Node.conjunction first (p :: ps)))) =
      (if first then "" else " AND ") ++ (c.equality ((bound + 1 : Nat) : Int) p.1 ++
        Sql.write c.dialect.style (Sql.pieces false
          (Node.outline c.dialect c.aliases (bound + 1) (Node.conjunction false ps)))) := by
  have hlead : Sql.write c.dialect.style (if first then []
      else [.verbatim (Sql.between (if first then none else some .and))]) =
        if first then "" else " AND " := by
    cases first <;> rfl
  -- the node in front is a leaf with a sign, which is always kept
  let l : Leaf := ⟨p.1, Operator.eq.tag, p.2, if first then none else some .and⟩
  have hform : l.form? = some (.symbol "=") := Node.formOf?_eq
  have hnodes : Node.conjunction first (p :: ps) = .leaf l :: Node.conjunction false ps := rfl
  rw [hnodes, Node.outline_leaf_of_kept _ _ _ hform, Sql.pieces_cons, Sql.write_append,
    Sql.write_append, Sql.Term.pieces_test, write_test_equality]
  exact congrArg (· ++ _) hlead

/-- Behind a first equality the others are numbered on. -/
theorem mapIdx_equality_cons (bound : Nat) (field : String) (fields : List String) :
    ((field :: fields).mapIdx fun i f => c.equality (bound + (i + 1)) f) =
      c.equality ((bound + 1 : Nat) : Int) field ::
        fields.mapIdx fun i f => c.equality ((bound + 1 : Nat) + (i + 1)) f := by
  have hnumber : ∀ i : Nat,
      (bound : Int) + ((i + 1 : Nat) + 1) = (bound + 1 : Nat) + (i + 1) := by
    intro i
    omega
  rw [List.mapIdx_cons]
  simp only [hnumber]
  rfl

/-- **Equalities behind a text** are written with `AND` in front of each. -/
theorem intercalate_equalities (bound : Nat) (text : String) (ps : List (String × Value)) :
    " AND ".intercalate (text :: (ps.map (·.1)).mapIdx fun i field =>
        c.equality (bound + (i + 1)) field) =
      text ++ Sql.write c.dialect.style (Sql.pieces false
        (Node.outline c.dialect c.aliases bound (Node.conjunction false ps))) := by
  induction ps generalizing bound text with
  | nil => simp [Node.conjunction]
  | cons p ps ih =>
    rw [List.map_cons, mapIdx_equality_cons, String.intercalate_cons_cons, ih, write_equality]
    simp [String.append_assoc]

/-- **The clause of equalities**: one for each field, in order, and nothing but `AND` between
them. -/
theorem write_conjunction (bound : Nat) (ps : List (String × Value)) :
    Sql.write c.dialect.style (Sql.pieces true
        (Node.outline c.dialect c.aliases bound (Node.conjunction true ps))) =
      " AND ".intercalate ((ps.map (·.1)).mapIdx fun i field =>
        c.equality (bound + (i + 1)) field) := by
  cases ps with
  | nil => rfl
  | cons p ps =>
    rw [write_equality, List.map_cons, mapIdx_equality_cons, intercalate_equalities]
    simp

/-- Leaves that compare by a symbol can be rendered for any store. -/
theorem survey_of_symbols {ls : List Leaf} {sign : String}
    (h : ∀ l ∈ ls, l.form? = some (.symbol sign)) : c.survey ls = .ok () := by
  induction ls with
  | nil => rfl
  | cons l ls ih =>
    have hl : c.verdict l = .ok () := by
      rw [verdict, h l List.mem_cons_self]
    rw [survey, hl, Report.ok_bind]
    exact ih fun l' hl' => h l' (List.mem_cons_of_mem l hl')

/-- **What a mapping is compiled to**: an equality for each entry, and the value of every entry.
Nothing is refused, and there is no notice. -/
theorem filter_mapping {es : Entries} {fields : List String}
    (h : List.Forall₂ NamesField es fields) (offset : Nat) :
    c.filter offset (.map es) = .ok
      ⟨.int c.limit, .int 0, "",
        withKeyword true (" AND ".intercalate
          (fields.mapIdx fun i field => c.equality (offset + (i + 1)) field)),
        es.map (·.2)⟩ := by
  -- each stage in turn: the nodes, the offset, the clause
  have hnodes : Node.ofFilters c.strict (.map es) =
      .ok (Node.conjunction true (Node.fieldValues es fields)) := by
    show Report.ofExcept (Node.equalities true es) = _
    rw [Node.equalities_eq h]
    rfl
  have hoffset : checkOffset offset = .ok () := if_neg (by omega)
  have hclause : c.clause offset (Node.conjunction true (Node.fieldValues es fields)) =
      .ok (" AND ".intercalate (fields.mapIdx fun i field => c.equality (offset + (i + 1)) field),
        es.map (·.2)) := by
    rw [clause, render_eq, c.survey_of_symbols fun l hl => Node.form?_of_mem_conjunction hl,
      write_conjunction, Node.values_conjunction, Node.map_fst_fieldValues h,
      Node.map_snd_fieldValues h]
    rfl
  rw [filter, hnodes, Report.ok_bind, select, hoffset, Report.ofExcept_ok_bind, assemble]
  show Report.bind (Report.ok (Node.conjunction true (Node.fieldValues es fields))) _ = _
  rw [Report.ok_bind, hclause]
  rfl

/-- **The clause of a mapping is empty** exactly for the mapping without entries. -/
theorem whereClause_filter_mapping_eq_empty {es : Entries} {fields : List String}
    (h : List.Forall₂ NamesField es fields) (offset : Nat) :
    withKeyword true (" AND ".intercalate
      (fields.mapIdx fun i field => c.equality (offset + (i + 1)) field)) = "" ↔ es = [] := by
  have hresult : (c.filter offset (.map es)).result = .ok _ :=
    congrArg Report.result (c.filter_mapping h offset)
  obtain ⟨_, ns, -, -, hrenders⟩ := filter_renders hresult
  have hempty := hrenders.whereClause_eq_empty.trans hrenders.values_eq_nil.symm
  exact hempty.trans List.map_eq_nil_iff

end Compiler

end BoundSql
