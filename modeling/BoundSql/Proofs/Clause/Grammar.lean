import BoundSql.Proofs.Clause.Compiled
import BoundSql.Proofs.Sql.Sentence

/-!
# Grammatical clauses

Any filter tree can be rendered, also one in which siblings are joined by nothing. The clause that
comes of it is a sentence exactly where what is left of the tree, without the leaves that are
dropped and the groups they leave empty, has a joiner on every sibling but the first.

* `Node.prune` — what is left of a filter;
* `Node.outline_proper_iff` — the outline of a filter is proper exactly where what is left of it is
  joined;
* `Compiled.Renders.sentence_of_joined` — then the clause is empty or a sentence, in any dialect;
* `Compiled.Renders.says_iff_joined` — only then the clause says anything;
* `Compiler.select_grammatical_iff` — both, for every selection that compiles.
-/

namespace BoundSql

namespace Node

/-! ### What is left of a filter -/

/-- The group of the given siblings, unless there are none. -/
def group? (j : Option Joiner) : List Node → Option Node
  | [] => none
  | n :: ns => some (group (n :: ns) j)

mutual

/-- What is left of a node: a leaf goes if its operator is unknown, a group if nothing is left in
it. -/
def pruned? : Node → Option Node
  | leaf l => l.form?.map fun _ => leaf l
  | group children j => group? j (prune children)

/-- What is left of siblings. -/
def prune : List Node → List Node
  | [] => []
  | n :: ns => n.pruned?.toList ++ prune ns

end

theorem prune_leaf_of_kept {l : Leaf} {f : Operator.Form} (h : l.form? = some f)
    (ns : List Node) : prune (leaf l :: ns) = leaf l :: prune ns := by
  rw [prune, pruned?, h]
  rfl

theorem prune_leaf_of_dropped {l : Leaf} (h : l.form? = none) (ns : List Node) :
    prune (leaf l :: ns) = prune ns := by
  rw [prune, pruned?, h]
  rfl

theorem prune_group_cons (children ns : List Node) (j : Option Joiner) :
    prune (group children j :: ns) = (group? j (prune children)).toList ++ prune ns := by
  rw [prune, pruned?]

/-- Nothing is left of a filter where no leaf is kept. -/
theorem prune_eq_nil (ns : List Node) : prune ns = [] ↔ kept ns = [] := by
  induction ns using forest_induction with
  | nil => exact Iff.intro (fun _ => rfl) fun _ => rfl
  | leaf l ns ih =>
    cases hf : l.form? with
    | none => rw [prune_leaf_of_dropped hf, kept_leaf_of_dropped hf, ih]
    | some f => simp [prune_leaf_of_kept hf, kept_leaf_of_kept hf]
  | group children j ns ihInner ih =>
    -- a group is left exactly if something inside is
    rw [prune_group_cons, kept_group_cons, List.append_eq_nil_iff, List.append_eq_nil_iff, ih,
      ← ihInner]
    cases prune children with
    | nil => exact Iff.rfl
    | cons n ns => simp [group?]

/-- **An outline is proper exactly where what is left of its nodes is joined.** -/
theorem outline_proper_iff (d : Dialect) (aliases : Aliases) (bound : Nat) (first : Bool)
    (ns : List Node) :
    Sql.Proper first (outline d aliases bound ns) ↔ WellJoined first (prune ns) := by
  induction ns using forest_induction generalizing bound first with
  | nil => exact Iff.rfl
  | leaf l ns ih =>
    cases hf : l.form? with
    | none => rw [outline_leaf_of_dropped d aliases bound hf, prune_leaf_of_dropped hf, ih]
    | some f =>
      rw [outline_leaf_of_kept d aliases bound hf, prune_leaf_of_kept hf, Sql.Proper, WellJoined,
        ih]
      exact Iff.rfl
  | group children j ns ihInner ih =>
    rw [outline_group_cons, prune_group_cons]
    have hinner := ihInner bound true
    cases houtline : outline d aliases bound children with
    | nil =>
      -- a group that nothing is left of is gone on both sides
      have hprune : prune children = [] :=
        (prune_eq_nil children).mpr ((outline_eq_nil d aliases bound children).mp houtline)
      rw [hprune]
      exact ih _ first
    | cons t ts =>
      have hprune : prune children ≠ [] := by
        intro hnil
        have hkept := (prune_eq_nil children).mp hnil
        rw [(outline_eq_nil d aliases bound children).mpr hkept] at houtline
        exact List.cons_ne_nil t ts houtline.symm
      obtain ⟨n, left, hleft⟩ := List.exists_cons_of_ne_nil hprune
      rw [houtline, hleft] at hinner
      have hrest := ih (bound + (kept children).length) false
      rw [hleft]
      -- a group that is left is proper if its own siblings are, and those behind it
      refine and_congr Iff.rfl (and_congr ?_ hrest)
      exact (and_iff_right (List.cons_ne_nil t ts)).trans hinner

end Node

open Node

/-! ### The clause of what is left -/

/-- The texts that a dialect writes comparisons as. -/
inductive Dialect.Writes (d : Dialect) : String → Prop
  | symbol (c : Column) {tag sign : String} (number : Nat) :
    Operator.formOf? tag = some (.symbol sign) →
      d.Writes (c.sql ++ " " ++ sign ++ " " ++ d.placeholder number)
  | membership (c : Column) (negate : Bool) (number : Nat) :
    d.Writes (Dialect.membership (d.placeholder number) c.sql negate)
  | pattern (c : Column) (number : Nat) : d.Writes (d.patternMatch c.sql (d.placeholder number))

/-- Every test of an outline is written as a comparison of the dialect. -/
theorem Dialect.writes_of_outline (d : Dialect) (aliases : Aliases) (bound : Nat)
    (ns : List Node) :
    ∀ t ∈ Sql.tests (outline d aliases bound ns), d.Writes (Sql.write d.style t.pieces) := by
  rw [tests_outline]
  intro t ht
  obtain ⟨i, hi, rfl⟩ := List.mem_mapIdx.mp ht
  -- a leaf that is kept has the form that its operator names
  have hform := form?_of_mem_kept (List.getElem_mem hi)
  generalize (kept ns)[i] = leaf at hform ⊢
  obtain ⟨l, f⟩ := leaf
  rw [Compiler.write_test]
  cases f with
  | symbol sign => exact .symbol _ _ hform
  | membership negate => exact .membership _ negate _
  | pattern => exact .pattern _ _

namespace Compiled.Renders

variable {r : Compiled} {c : Compiler} {bound : Nat} {keyword : Bool} {ns : List Node}

/-- **Where what is left of the nodes is joined, the clause is empty or a sentence**, behind the
keyword if it is wanted. -/
theorem sentence_of_joined (h : r.Renders c bound keyword ns)
    (hjoined : WellJoined true (prune ns)) :
    r.whereClause = "" ∨ ∃ text, Sql.Sentence c.dialect.Writes text ∧
      r.whereClause = (if keyword then "WHERE " else "") ++ text := by
  have hproper := (outline_proper_iff c.dialect c.aliases bound true ns).mpr hjoined
  by_cases hne : outline c.dialect c.aliases bound ns = []
  · left
    exact h.whereClause_eq_empty.mpr ((outline_eq_nil _ _ _ _).mp hne)
  · right
    have hsentence := Sql.sentence_write c.dialect.style hproper hne
      (c.dialect.writes_of_outline c.aliases bound ns)
    refine ⟨_, hsentence, ?_⟩
    have htext := mt (Sql.write_pieces_eq_empty c.dialect.style _).mp hne
    rw [h.whereClause]
    -- the keyword stands in front of any clause but the empty one
    cases keyword with
    | true => simp [Compiler.withKeyword, htext]
    | false => simp [Compiler.withKeyword]

/-- **The clause says something exactly where what is left of the nodes is joined.** -/
theorem says_iff_joined (h : r.Renders c bound keyword ns)
    (hoperator : Sql.IsOperator c.dialect.patternOperator) :
    (∃ ts, Sql.Says (Sql.lexemes bound r.whereClause) ts) ↔ WellJoined true (prune ns) := by
  rw [h.whereClause, ← outline_proper_iff c.dialect c.aliases bound true ns]
  exact Sql.says_write_iff c.dialect.style (outline_legible hoperator _ _ _)
    (numbers_outline _ _ _ _) keyword

end Compiled.Renders

namespace Compiler

/-- **When a clause is grammatical.** Let a selection compile, in a strict or a lenient compiler,
and let every sibling that is left of its nodes, but the first, have a joiner. Then the clause is
empty or, behind the keyword, a sentence: comparisons and parenthesised sentences with exactly one
joiner between any two of them and none at either end.

Siblings that are left without a joiner make the clause say nothing at all, so the condition cannot
be weakened. -/
theorem select_grammatical_iff {c : Compiler} {k : Compilation} {s : Selection} {r : Compiled}
    {ns : List Node} (hns : s.effectiveNodes k.textFields = .ok ns)
    (h : (c.select k s).result = .ok r) :
    (WellJoined true (prune ns) →
      r.whereClause = "" ∨ ∃ text, Sql.Sentence c.dialect.Writes text ∧
        r.whereClause = (if k.keyword then "WHERE " else "") ++ text) ∧
    (Sql.IsOperator c.dialect.patternOperator →
      ((∃ ts, Sql.Says (Sql.lexemes k.offset.toNat r.whereClause) ts) ↔
        WellJoined true (prune ns))) := by
  obtain ⟨bound, ns', hbound, hns', hrenders⟩ := select_renders h
  obtain rfl : ns' = ns := Except.ok.inj (hns'.symm.trans hns)
  have htoNat : k.offset.toNat = bound := by rw [hbound, Int.toNat_natCast]
  rw [htoNat]
  -- the outline of a selection has a term for each node that is left, joiner for joiner
  exact ⟨hrenders.sentence_of_joined, hrenders.says_iff_joined⟩

/-- A leaf without a joiner between a leaf that is dropped and a group that nothing is left of. -/
def gapNodes : List Node :=
  [.leaf ⟨"ghost", "near", .null, none⟩, .leaf ⟨"a", "eq", .int 1, none⟩,
    .group [.leaf ⟨"ghost", "near", .null, none⟩] none, .leaf ⟨"b", "eq", .int 2, some .or⟩]

/-- What is dropped takes its joiner along, so only the siblings that are left need one. -/
theorem select_grammatical_iff_of_gaps :
    let clause := "WHERE \"a\" = $1 OR \"b\" = $2"
    (Selection.ofNodes gapNodes).effectiveNodes [] = .ok gapNodes ∧
    ((({} : Compiler).select {} (.ofNodes gapNodes)).result =
      .ok ⟨.int standardLimit, .int 0, "", clause, [.int 1, .int 2]⟩) ∧
    ¬ WellJoined true gapNodes ∧ WellJoined true (prune gapNodes) ∧
    (∃ text, Sql.Sentence Dialect.postgres.Writes text ∧ clause = "WHERE " ++ text) ∧
    ∃ ts, Sql.Says (Sql.lexemes 0 clause) ts := by
  intro clause
  have hns : (Selection.ofNodes gapNodes).effectiveNodes [] = .ok gapNodes := rfl
  have hselect : (({} : Compiler).select {} (.ofNodes gapNodes)).result =
      .ok ⟨.int standardLimit, .int 0, "", clause, [.int 1, .int 2]⟩ := by
    rfl
  have hleft : prune gapNodes =
      [.leaf ⟨"a", "eq", .int 1, none⟩, .leaf ⟨"b", "eq", .int 2, some .or⟩] := by
    rfl
  -- `a` has no joiner, but the node before it is not left
  have hgaps : ¬ WellJoined true gapNodes := by
    simp [WellJoined, Node.joiner, gapNodes]
  have hjoined : WellJoined true (prune gapNodes) := by
    simp [hleft, WellJoined, JoinedInside, Node.joiner]
  obtain ⟨hsentence, hsaid⟩ := select_grammatical_iff hns hselect
  refine ⟨hns, hselect, hgaps, hjoined, ?_, (hsaid Sql.isOperator_ilike).mpr hjoined⟩
  exact (hsentence hjoined).resolve_left (by decide)

/-- Two comparisons as raw data, the second of them joined by nothing. -/
def bareSiblings : Value :=
  .list [.map [(.text "field", .text "a"), (.text "operator", .text "eq"), (.text "value", .int 1)],
    .map [(.text "field", .text "b"), (.text "operator", .text "eq"), (.text "value", .int 2)]]

/-- Raw data that passes as nodes does not always compile to a clause that says anything. -/
theorem not_grammatical_of_bareSiblings :
    ¬ ∀ (c : Compiler) (raw : Value) (ns : List Node) (r : Compiled),
      Sql.IsOperator c.dialect.patternOperator → Node.checkList raw = .ok ns →
      (c.select {} (.ofNodes ns)).result = .ok r →
      ∃ ts, Sql.Says (Sql.lexemes 0 r.whereClause) ts := by
  intro h
  have hcheck : Node.checkList bareSiblings =
      .ok [.leaf ⟨"a", "eq", .int 1, none⟩, .leaf ⟨"b", "eq", .int 2, none⟩] := by
    rfl
  have hselect : (({} : Compiler).select {} (.ofNodes
        [.leaf ⟨"a", "eq", .int 1, none⟩, .leaf ⟨"b", "eq", .int 2, none⟩])).result =
      .ok ⟨.int standardLimit, .int 0, "", "WHERE \"a\" = $1 \"b\" = $2", [.int 1, .int 2]⟩ := by
    rfl
  obtain ⟨ts, hsaid⟩ := h {} bareSiblings _ _ Sql.isOperator_ilike hcheck hselect
  -- a reader stops where the second comparison begins
  have hread : Sql.read 0 "WHERE \"a\" = $1 \"b\" = $2" = none := by decide +kernel
  exact Option.some_ne_none ts (hsaid.readLexemes_eq.symm.trans hread)

end Compiler

end BoundSql
