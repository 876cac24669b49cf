import BoundSql.Proofs.Clause.FilterForms

/-!
# Mappings and lists of equalities

The same equalities can be given in two forms: as a mapping of fields to values, whose entries are
made into nodes as they are, and as a list of raw nodes, which are read and checked one by one. Both
give the same nodes. So both are compiled to the same clause, which keeps every entry and is refused
neither strictly nor leniently.

* `Node.rawEqualities` — the raw nodes of a mapping;
* `Node.readAll_rawEqualities` — what they are read as;
* `Compiler.filter_conjunction` — the two forms are compiled alike, and to what.
-/

namespace BoundSql

namespace Node

/-- The entries of the raw node of an equality. All but the first are joined by `AND`. -/
def rawEquality (first : Bool) (e : Value × Value) : Entries :=
  [(.text "field", e.1), (.text "operator", .text "eq"), (.text "value", e.2)] ++
    if first then [] else [(.text "conditionType", .text "AND")]

/-- The raw nodes of equalities. -/
def rawEqualities (first : Bool) : Entries → List Value
  | [] => []
  | e :: es => .map (rawEquality first e) :: rawEqualities false es

/-- **The raw node of an equality** is read as the equality, by strict readers and lenient ones. -/
theorem readOne_rawEquality (strict : Bool) (path : String) (first : Bool) {e : Value × Value}
    {field : String} (h : NamesField e field) :
    readOne strict path (.map (rawEquality first e)) = .ok (equals first field e.2) := by
  -- the entries of the raw node pass each check of a leaf, and none of them is a list of children
  have hfield : Check.required "field" Check.name (rawEquality first e) = .ok field := by
    show (Check.name e.1).below (.key "field") = _
    rw [Check.name_of_asText? h.key h.ne_empty]
    rfl
  have hchecked : Leaf.check (rawEquality first e) =
      .ok ⟨field, Operator.eq.tag, e.2, if first then none else some .and⟩ := by
    rw [Leaf.check, hfield]
    cases first <;> rfl
  have hleaf : readChildren strict path (rawEquality first e) = none := by
    cases first <;> rfl
  rw [readOne, hleaf, hchecked]
  rfl

/-- **Raw equalities are read as the nodes of the mapping**, all of them and without a notice. -/
theorem readAll_rawEqualities (strict : Bool) (path : String) {es : Entries}
    {fields : List String} (h : List.Forall₂ NamesField es fields) (index : Nat) (first : Bool) :
    readAll strict path index (rawEqualities first es) =
      .ok (conjunction first (fieldValues es fields)) := by
  induction h generalizing index first with
  | nil => rfl
  | @cons e field es fields hfield _ ih =>
    rw [rawEqualities, readAll, readOne_rawEquality _ _ first hfield]
    show Report.bind (Report.ok (some (equals first field e.2))) _ = _
    rw [Report.ok_bind, ih]
    rfl

end Node

namespace Compiler

variable (c : Compiler)

/-- Raw data with only a filter that is read without a notice is compiled as its nodes are. -/
theorem selectRaw_rawFilter_of_read (offset : Int) {f : Value} (hf : f ≠ .null) {ns : List Node}
    (hread : Node.readItems c.strict Node.rootPath f = .ok ns) :
    c.selectRaw { offset := offset } (Selection.rawFilter f) =
      c.select { offset := offset } (.ofNodes ns) := by
  have hselection : Selection.read c.strict (Selection.rawFilter f) = .ok (.ofNodes ns) := by
    rw [Selection.read_rawFilter c.strict hf, hread]
    rfl
  rw [selectRaw, hselection]
  simp only [Report.ok_bind]
  rfl

/-- **A mapping is the conjunction of its entries.** It is compiled like the list of raw equalities,
given alone or among raw data, whatever the offset is. Unless the offset is misused, an equality is
kept for each entry with the value of the entry, in order, and there is nothing else. -/
theorem filter_conjunction (c : Compiler) {es : Entries} {fields : List String}
    (h : List.Forall₂ NamesField es fields) (offset : Int) :
    c.filter offset (.list (Node.rawEqualities true es)) = c.filter offset (.map es) ∧
    c.selectRaw { offset := offset } (Selection.rawFilter (.list (Node.rawEqualities true es))) =
      c.filter offset (.map es) ∧
    (0 ≤ offset → ∃ clause,
      c.filter offset (.map es) = .ok ⟨.int c.limit, .int 0, "", clause, es.map (·.2)⟩ ∧
      clause = withKeyword true (" AND ".intercalate
        (fields.mapIdx fun i field => c.equality (offset + (i + 1)) field)) ∧
      (clause = "" ↔ es = [])) := by
  let ns := Node.conjunction true (Node.fieldValues es fields)
  -- the mapping and the list come to the same nodes before anything is compiled
  have hmapping : c.filter offset (.map es) = c.select { offset := offset } (.ofNodes ns) := by
    show (Report.ofExcept (Node.equalities true es)).bind _ = _
    rw [Node.equalities_eq h]
    exact Report.ok_bind _ _
  have hread : Node.readItems c.strict Node.rootPath (.list (Node.rawEqualities true es)) =
      .ok ns := by
    show Report.mapError _ (Node.readAll c.strict Node.rootPath 0 _) = _
    rw [Node.readAll_rawEqualities c.strict Node.rootPath h]
    rfl
  have hlist : c.filter offset (.list (Node.rawEqualities true es)) =
      c.select { offset := offset } (.ofNodes ns) := by
    have hnodes : Node.ofFilters c.strict (.list (Node.rawEqualities true es)) =
        Node.readItems c.strict Node.rootPath (.list (Node.rawEqualities true es)) := rfl
    rw [filter, hnodes, hread, Report.ok_bind]
  refine ⟨hlist.trans hmapping.symm, ?_, fun hoffset => ?_⟩
  · rw [hmapping]
    have hsome : Value.list (Node.rawEqualities true es) ≠ .null := by
      intro hnull
      cases hnull
    exact c.selectRaw_rawFilter_of_read offset hsome hread
  · -- behind an offset that is not negative a mapping is always compiled
    obtain ⟨bound, rfl⟩ := Int.eq_ofNat_of_zero_le hoffset
    exact ⟨_, c.filter_mapping h bound, rfl, c.whereClause_filter_mapping_eq_empty h bound⟩

/-- A mapping with a dotted field of an aliased table, with two spellings of one column, and with a
value that is nothing, a member and a structure. -/
def ownedPets : Entries :=
  [(.text "owners.firstName", .null), (.text "petKind", .member "Kind" .text "CAT" (.text "cat")),
    (.text "pet_kind", .list [.int 1])]

/-- All entries of the mapping are compared, those of one column as well. -/
theorem filter_conjunction_of_ownedPets :
    ∃ clause, ({ aliases := [("owners", "o")] } : Compiler).filter 2 (.map ownedPets) =
        .ok ⟨.int standardLimit, .int 0, "", clause, ownedPets.map (·.2)⟩ ∧
      clause = "WHERE \"o\".\"first_name\" = $3 AND \"pet_kind\" = $4 AND \"pet_kind\" = $5" := by
  have hfields : List.Forall₂ NamesField ownedPets ["owners.firstName", "petKind", "pet_kind"] :=
    .cons ⟨rfl, by decide⟩ (.cons ⟨rfl, by decide⟩ (.cons ⟨rfl, by decide⟩ .nil))
  obtain ⟨clause, hfilter, hclause, -⟩ :=
    (filter_conjunction { aliases := [("owners", "o")] } hfields 2).2.2 (by decide)
  refine ⟨clause, hfilter, hclause.trans ?_⟩
  decide +kernel

end Compiler

end BoundSql
