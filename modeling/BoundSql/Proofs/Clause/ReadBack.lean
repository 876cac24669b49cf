import BoundSql.Proofs.Clause.Compiled

/-!
# Compiled clauses read back

A compiled clause says what its filter says and nothing else. Fields and aliases may be any texts,
with quotes, brackets, keywords and placeholders in them: the lexical rules of SQL find the same
tests in the same groups behind the same joiners.

* `Compiled.Renders.says_iff` — the clause says the outline of its nodes and nothing else;
* `Compiler.select_says_iff` — for the stores known by name, with what the outline tests.
-/

namespace BoundSql

open Node

namespace Compiled.Renders

variable {r : Compiled} {c : Compiler} {bound : Nat} {keyword : Bool} {ns : List Node}

/-- A compiled clause says the outline of its nodes. -/
theorem says_outline (h : r.Renders c bound keyword ns)
    (hoperator : Sql.IsOperator c.dialect.patternOperator) (hjoined : WellJoined true ns) :
    Sql.Says (Sql.lexemes bound r.whereClause)
      (Sql.settle true (outline c.dialect c.aliases bound ns)) := by
  rw [h.whereClause]
  exact Sql.says_write c.dialect.style (outline_proper _ _ _ hjoined)
    (outline_legible hoperator _ _ _) (numbers_outline _ _ _ _) keyword

/-- **A compiled clause says the outline of its nodes** and nothing else. -/
theorem says_iff (h : r.Renders c bound keyword ns)
    (hoperator : Sql.IsOperator c.dialect.patternOperator) (hjoined : WellJoined true ns)
    (ts : List Sql.Term) :
    Sql.Says (Sql.lexemes bound r.whereClause) ts ↔
      ts = Sql.settle true (outline c.dialect c.aliases bound ns) := by
  have hsays := h.says_outline hoperator hjoined
  constructor
  · intro hts
    exact Sql.says_unique hts hsays
  · rintro rfl
    exact hsays

end Compiled.Renders

namespace Compiler

/-- **A compiled clause says its filter and nothing else.** For a store known by name, in any
placeholder style, and any nodes each of which is joined to the sibling before it:

* among all nested siblings the clause says exactly one list, the outline of the nodes, where the
  first of siblings has lost its joiner;
* the reader finds it;
* its tests are the leaves that are kept, each with its column, the phrase of its operator and the
  number of the parameter that has its value.
-/
theorem select_says_iff {c : Compiler} {k : Compilation} {s : Selection} {r : Compiled}
    {ns : List Node} {name style : Value} (hdialect : Dialect.resolve name style = .ok c.dialect)
    (hns : s.effectiveNodes k.textFields = .ok ns) (hjoined : WellJoined true ns)
    (h : (c.select k s).result = .ok r) :
    let bound := k.offset.toNat
    let tree := Sql.settle true (outline c.dialect c.aliases bound ns)
    (∀ ts, Sql.Says (Sql.lexemes bound r.whereClause) ts ↔ ts = tree) ∧
    Sql.read bound r.whereClause = some tree ∧
    (Sql.tests tree =
      (kept ns).mapIdx fun i leaf => Leaf.test c.dialect c.aliases (bound + i + 1) leaf) ∧
    r.values = (kept ns).map (·.1.value) := by
  obtain ⟨bound, ns', hbound, hns', hrenders⟩ := select_renders h
  obtain rfl : ns' = ns := Except.ok.inj (hns'.symm.trans hns)
  have htoNat : k.offset.toNat = bound := by rw [hbound, Int.toNat_natCast]
  rw [htoNat]
  intro bound' tree
  -- a store that is known by name has an operator that can be read
  have hoperator := Dialect.isOperator_of_resolve hdialect
  have hsays : Sql.Says (Sql.lexemes bound r.whereClause) tree :=
    hrenders.says_outline hoperator hjoined
  refine ⟨hrenders.says_iff hoperator hjoined, hsays.readLexemes_eq, ?_, hrenders.values⟩
  -- settling changes joiners, not tests
  rw [Sql.tests_settle, tests_outline]

/-- An alias with a quote, a bracket, a keyword and a placeholder in it. -/
def hostileAliases : Compiler :=
  { dialect := .sqlite, aliases := [("pets", "\"a\" = ? OR 't(")] }

/-- A group between a leaf with an unknown operator and a group with nothing else in it; its second
path has a quote of either kind and no field. -/
def hostileNodes : List Node :=
  [.leaf ⟨"ghost", "near", .null, none⟩,
    .group [.leaf ⟨"pets.x) AND (", "eq", .int 1, none⟩,
      .leaf ⟨"\"b'.", "contains", .text "y", some .or⟩] (some .and),
    .group [.leaf ⟨"ghost", "near", .null, none⟩] (some .or)]

/-- Names of any characters are read as they are. -/
theorem select_says_iff_of_hostile_names :
    let clause :=
      "WHERE ( \"\"\"a\"\" = ? OR 't(\".\"x_and\" = ? OR \"\"\"b'\".\"\" LIKE '%' || ? || '%' )"
    let tree : List Sql.Term := [.group none [
      .test none ⟨⟨some "\"a\" = ? OR 't(", "x_and"⟩, .symbol "=", 3⟩,
      .test (some .or) ⟨⟨some "\"b'", ""⟩, .pattern "LIKE" "%" "%", 4⟩]]
    Dialect.resolve (.text "sqlite") .null = .ok hostileAliases.dialect ∧
    (Selection.ofNodes hostileNodes).effectiveNodes [] = .ok hostileNodes ∧
    WellJoined true hostileNodes ∧
    (hostileAliases.select { offset := 2 } (.ofNodes hostileNodes)).result =
      .ok ⟨.int standardLimit, .int 0, "", clause, [.int 1, .text "y"]⟩ ∧
    Sql.read 2 clause = some tree := by
  intro clause tree
  have hdialect : Dialect.resolve (.text "sqlite") .null = .ok hostileAliases.dialect := rfl
  have hns : (Selection.ofNodes hostileNodes).effectiveNodes [] = .ok hostileNodes := rfl
  have hjoined : WellJoined true hostileNodes := by
    simp [WellJoined, JoinedInside, Node.joiner, hostileNodes]
  have hselect : (hostileAliases.select { offset := 2 } (.ofNodes hostileNodes)).result =
      .ok ⟨.int standardLimit, .int 0, "", clause, [.int 1, .text "y"]⟩ := by
    rfl
  -- the quotes, the bracket and the placeholder are read as parts of names
  have htree : Sql.settle true
      (outline hostileAliases.dialect hostileAliases.aliases 2 hostileNodes) = tree := by
    rfl
  have hread := (select_says_iff hdialect hns hjoined hselect).2.1
  refine ⟨hdialect, hns, hjoined, hselect, ?_⟩
  rw [← htree]
  exact hread

end Compiler

end BoundSql
