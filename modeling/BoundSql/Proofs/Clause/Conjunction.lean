import BoundSql.Proofs.Clause.Pruning

/-!
# Conjunctive filters

Where all siblings but the first are joined by `AND`, at any depth, a clause is a conjunction,
however its leaves are nested. A leaf that is dropped is then one condition less: whatever the whole
filter lets through, the clause lets through.

* `Sql.holds_settle` — a conjunction is true if all of its tests are;
* `Compiler.tests_tree_map_truth` — the truths of the tests, from those of the leaves;
* `Compiler.select_conjunction` — when the clause of a conjunctive filter is true, and what becomes
  of it when further leaves are removed.
-/

namespace BoundSql

/-! ### Conjunctions of tests -/

namespace Sql

mutual

/-- Whether inside a term all siblings but the first are joined by `AND`. -/
def Term.ConjoinedInside : Term → Prop
  | .test _ _ => True
  | .group _ ts => Conjoined true ts

/-- Whether all siblings but the first are joined by `AND`, at any depth. -/
def Conjoined (first : Bool) : List Term → Prop
  | [] => True
  | t :: ts =>
    (first = false → t.joiner = some .and) ∧ t.ConjoinedInside ∧ Conjoined false ts

end

/-- Siblings that are conjoined behind others are conjoined anywhere. -/
theorem Conjoined.anywhere {ts : List Term} (h : Conjoined false ts) (first : Bool) :
    Conjoined first ts := by
  cases ts with
  | nil => trivial
  | cons t ts => exact ⟨fun _ => h.1 rfl, h.2⟩

/-- A term that goes on with the alternative that has begun, being the first or joined by `AND`. -/
theorem holdsFrom_settle_cons (v : Test → Bool) {first : Bool} {t : Term}
    (hj : first = false → t.joiner = some .and) (begun : Bool) (ts : List Term) :
    holdsFrom v begun (settle first (t :: ts)) =
      holdsFrom v (begun && t.settle.holds v) (settle false ts) := by
  -- no `OR` is left: a first term is written without its joiner, any other has `AND`
  have hjoiner : (if first then none else t.joiner) ≠ some .or := by
    cases first with
    | true => exact fun h => nomatch h
    | false =>
      rw [hj rfl]
      decide
  have hholds : ∀ j, (t.settle.withJoiner j).holds v = t.settle.holds v := by
    intro j
    cases t <;> rfl
  rw [settle_cons, holdsFrom_cons, Term.joiner_withJoiner, if_neg hjoiner, hholds]

/-- **A conjunction** goes on with the alternative that has begun to its end. -/
theorem holdsFrom_settle (v : Test → Bool) {first : Bool} {ts : List Term}
    (h : Conjoined first ts) (begun : Bool) :
    holdsFrom v begun (settle first ts) = (begun && (tests ts).all v) := by
  induction ts using forest_induction generalizing first begun with
  | nil => exact (Bool.and_true begun).symm
  | test j t ts ih =>
    -- the test is one more factor of the alternative
    obtain ⟨hj, -, hts⟩ := h
    rw [holdsFrom_settle_cons v hj, ih hts, tests_test_cons, List.all_cons, ← Bool.and_assoc]
    rfl
  | group j inner ts ihInner ih =>
    -- a group is the conjunction of what is inside, begun anew
    obtain ⟨hj, hinner, hts⟩ := h
    have hgroup : (Term.group j inner).settle.holds v = (tests inner).all v := ihInner hinner true
    rw [holdsFrom_settle_cons v hj, ih hts, hgroup, tests_group_cons, List.all_append,
      Bool.and_assoc]

/-- **A conjunction is true if all of its tests are**, at whatever depth they stand. -/
theorem holds_settle (v : Test → Bool) {ts : List Term} (h : Conjoined true ts) :
    holds v (settle true ts) = (tests ts).all v :=
  (holdsFrom_settle v h true).trans (Bool.true_and _)

end Sql

/-! ### Conjunctive filters -/

namespace Node

mutual

/-- Whether inside a node all siblings but the first are joined by `AND`. -/
def ConjoinedInside : Node → Prop
  | leaf _ => True
  | group children _ => Conjoined true children

/-- Whether all siblings but the first are joined by `AND`, at any depth. -/
def Conjoined (first : Bool) : List Node → Prop
  | [] => True
  | n :: ns => (first = false → n.joiner = some .and) ∧ n.ConjoinedInside ∧ Conjoined false ns

end

/-- Siblings joined by `AND` are joined. -/
theorem Conjoined.wellJoined {first : Bool} {ns : List Node} (h : Conjoined first ns) :
    WellJoined first ns := by
  have hne : ∀ {first : Bool} {j : Option Joiner}, (first = false → j = some .and) →
      first = false → j ≠ none := by
    intro first j hj hfirst
    rw [hj hfirst]
    exact Option.some_ne_none _
  induction ns using forest_induction generalizing first with
  | nil => trivial
  | leaf l ns ih => exact ⟨hne h.1, trivial, ih h.2.2⟩
  | group children j ns ihInner ih => exact ⟨hne h.1, ihInner h.2.1, ih h.2.2⟩

/-- **Joined by `AND`, siblings leave a conjunction**, whichever of them are dropped. -/
theorem outline_conjoined (d : Dialect) (aliases : Aliases) (bound : Nat) {first : Bool}
    {ns : List Node} (h : Conjoined first ns) :
    Sql.Conjoined first (outline d aliases bound ns) := by
  induction ns using forest_induction generalizing bound first with
  | nil => trivial
  | leaf l ns ih =>
    obtain ⟨hj, -, hns⟩ := h
    cases hform : l.form? with
    | none =>
      -- the next sibling that is kept may come to stand first
      rw [outline_leaf_of_dropped d aliases bound hform]
      exact (ih bound hns).anywhere first
    | some f =>
      rw [outline_leaf_of_kept d aliases bound hform]
      exact ⟨hj, trivial, ih _ hns⟩
  | group children j ns ihInner ih =>
    obtain ⟨hj, hchildren, hns⟩ := h
    have hinner := ihInner bound hchildren
    rw [outline_group_cons]
    cases hkept : outline d aliases bound children with
    | nil => exact (ih _ hns).anywhere first
    | cons t ts =>
      rw [hkept] at hinner
      exact ⟨hj, hinner, ih _ hns⟩

/-! ### Truths of leaves -/

/-- The leaves of siblings from left to right, each with its truth; `w` gives the truth of the leaf
at each position. -/
def judged (w : Nat → Bool) (ns : List Node) : List (Leaf × Bool) :=
  (leavesOf ns).mapIdx fun i l => (l, w i)

/-- The truths of the leaves with a known operator, from left to right. -/
def knownTruths (w : Nat → Bool) (ns : List Node) : List Bool :=
  ((judged w ns).filter fun l => Operator.isKnown l.1.operator).map (·.2)

/-- The truth of a test behind `bound` parameters: that of the leaf whose value is bound to the
parameter of its number. -/
def truth (w : Nat → Bool) (bound : Nat) (ns : List Node) (t : Sql.Test) : Bool :=
  (knownTruths w ns).getD (t.number - (bound + 1)) false

theorem map_fst_judged (w : Nat → Bool) (ns : List Node) :
    (judged w ns).map (·.1) = leavesOf ns := by
  refine List.ext_getElem ?_ fun i _ _ => ?_
  · simp [judged]
  · simp [judged]

/-- The leaves that are kept are those with a known operator. -/
theorem map_fst_kept (ns : List Node) :
    (kept ns).map (·.1) = (leavesOf ns).filter fun l => Operator.isKnown l.operator := by
  rw [kept, List.map_filterMap, ← List.filterMap_eq_filter]
  refine congrArg (List.filterMap · (leavesOf ns)) (funext fun l => ?_)
  rw [Option.guard, Operator.isKnown_eq, Leaf.kept?, Leaf.form?]
  cases Operator.formOf? l.operator <;> rfl

theorem length_knownTruths (w : Nat → Bool) (ns : List Node) :
    (knownTruths w ns).length = (kept ns).length := by
  have hleaves : ((judged w ns).filter fun l => Operator.isKnown l.1.operator).map (·.1) =
      (kept ns).map (·.1) := by
    rw [map_fst_kept, ← map_fst_judged w ns, List.filter_map]
    rfl
  have hlength := congrArg List.length hleaves
  rw [List.length_map, List.length_map] at hlength
  rw [knownTruths, List.length_map, hlength]

/-- Fewer leaves with the same truths are fewer truths. -/
theorem knownTruths_sublist {w w' : Nat → Bool} {left ns : List Node}
    (h : (judged w' left).Sublist (judged w ns)) :
    (knownTruths w' left).Sublist (knownTruths w ns) :=
  (h.filter _).map _

end Node

open Node

namespace Compiler

/-- What the clause of nodes says behind `bound` parameters. -/
def tree (c : Compiler) (bound : Nat) (ns : List Node) : List Sql.Term :=
  Sql.settle true (outline c.dialect c.aliases bound ns)

/-- **The truths of the tests** of a clause are those of the leaves with a known operator. -/
theorem tests_tree_map_truth (c : Compiler) (w : Nat → Bool) (bound : Nat) (ns : List Node) :
    (Sql.tests (c.tree bound ns)).map (truth w bound ns) = knownTruths w ns := by
  rw [tree, Sql.tests_settle, tests_outline]
  refine List.ext_getElem ?_ fun i hi hi' => ?_
  · rw [List.length_map, List.length_mapIdx, length_knownTruths]
  · -- the number of a test is its position behind the parameters bound before
    have hposition : bound + i + 1 - (bound + 1) = i := by omega
    rw [List.getElem_map, List.getElem_mapIdx, truth, Leaf.test, hposition,
      List.getD_eq_getElem?_getD, List.getElem?_eq_getElem hi', Option.getD_some]

/-- **When the clause of a conjunctive filter is true**: if all leaves with a known operator are. -/
theorem holds_tree (c : Compiler) (w : Nat → Bool) (bound : Nat) {ns : List Node}
    (h : Conjoined true ns) :
    Sql.holds (truth w bound ns) (c.tree bound ns) = (knownTruths w ns).all id := by
  have houtline := outline_conjoined c.dialect c.aliases bound h
  rw [← c.tests_tree_map_truth w bound ns, List.all_map, tree, Sql.holds_settle _ houtline,
    Sql.tests_settle]
  rfl

/-- Leaves can be rendered if each of them can. -/
theorem survey_eq_ok_iff (c : Compiler) (ls : List Leaf) :
    (∃ u, (c.survey ls).result = .ok u) ↔ ∀ l ∈ ls, ∃ u, (c.verdict l).result = .ok u := by
  induction ls with
  | nil => exact ⟨fun _ => List.forall_mem_nil _, fun _ => ⟨(), rfl⟩⟩
  | cons l ls ih =>
    rw [List.forall_mem_cons, ← ih]
    -- the survey goes on behind a leaf exactly if the leaf has no error
    constructor
    · rintro ⟨u, hu⟩
      obtain ⟨u', hl, hls⟩ := Report.result_bind_eq_ok.mp hu
      exact ⟨⟨u', hl⟩, ⟨u, hls⟩⟩
    · rintro ⟨⟨u', hl⟩, ⟨u, hls⟩⟩
      exact ⟨u, Report.result_bind_eq_ok.mpr ⟨u', hl, hls⟩⟩

end Compiler

/-- **A clause that is a conjunction** of the leaves of nodes, behind `bound` parameters. -/
structure Compiled.Conjoins (r : Compiled) (c : Compiler) (bound : Nat) (keyword : Bool)
    (ns : List Node) : Prop where
  /-- The clause is what the nodes say as text. -/
  text : r.whereClause = Compiler.withKeyword keyword
    (Sql.write c.dialect.style (Sql.pieces true (c.tree bound ns)))
  /-- Nothing else can be read in it, given an operator for patterns that can be read. -/
  reads : Sql.IsOperator c.dialect.patternOperator →
    ∀ ts, Sql.Says (Sql.lexemes bound r.whereClause) ts ↔ ts = c.tree bound ns
  /-- So a reader finds it true exactly if all leaves with a known operator are, the truths of the
  leaves being given in any way. -/
  value : Sql.IsOperator c.dialect.patternOperator → ∀ w,
    (Sql.read bound r.whereClause).map (Sql.holds (truth w bound ns)) =
      some ((knownTruths w ns).all id)
  /-- It tests the leaves with a known operator, each with the number of its parameter, -/
  tests : Sql.tests (c.tree bound ns) =
    (kept ns).mapIdx fun i leaf => Leaf.test c.dialect c.aliases (bound + i + 1) leaf
  /-- so that the truths of its tests are the truths of these leaves. -/
  truths : ∀ w, (Sql.tests (c.tree bound ns)).map (truth w bound ns) = knownTruths w ns
  /-- What it says is true exactly if all of these leaves are. -/
  holds : ∀ w, Sql.holds (truth w bound ns) (c.tree bound ns) = (knownTruths w ns).all id

namespace Compiler

theorem conjoins_of_select {c : Compiler} {k : Compilation} {s : Selection} {r : Compiled}
    {ns : List Node} (hns : s.effectiveNodes k.textFields = .ok ns) (hconjoined : Conjoined true ns)
    (h : (c.select k s).result = .ok r) : r.Conjoins c k.offset.toNat k.keyword ns := by
  obtain ⟨bound, ns', hbound, hns', hrenders⟩ := select_renders h
  obtain rfl : ns' = ns := Except.ok.inj (hns'.symm.trans hns)
  have htoNat : k.offset.toNat = bound := by rw [hbound, Int.toNat_natCast]
  rw [htoNat]
  -- the tree is the outline with the joiners that are written; what it says is read off the clause
  refine ⟨?_, ?_, ?_, ?_, ?_, ?_⟩
  · rw [tree, Sql.pieces_settle]
    exact hrenders.whereClause
  · intro hoperator
    exact hrenders.says_iff hoperator hconjoined.wellJoined
  · intro hoperator w
    have hsays := hrenders.says_outline hoperator hconjoined.wellJoined
    have hread : Sql.read bound r.whereClause = some (c.tree bound ns') := hsays.readLexemes_eq
    rw [hread, ← c.holds_tree w bound hconjoined]
    rfl
  · rw [tree, Sql.tests_settle, tests_outline]
  · exact fun w => c.tests_tree_map_truth w bound ns'
  · exact fun w => c.holds_tree w bound hconjoined

/-- **Dropping conditions only widens.** Let the nodes of a selection be joined by `AND` at any
depth, and let `w` give any truths to its leaves, those with an unknown operator included.

* The clause is true exactly if all leaves with a known operator are, however they are nested; an
  empty clause is true.
* So it is true wherever all leaves of the filter are.
* Where further leaves are removed, what remains is compiled too, and its clause is true wherever
  that of the whole filter is. Which leaves are removed, and how the others are nested, is free.
-/
theorem select_conjunction {c : Compiler} {k : Compilation} {s : Selection} {r : Compiled}
    {ns : List Node} (hns : s.effectiveNodes k.textFields = .ok ns)
    (hconjoined : Conjoined true ns) (h : (c.select k s).result = .ok r) :
    let bound := k.offset.toNat
    r.Conjoins c bound k.keyword ns ∧
    (∀ w, (∀ l ∈ judged w ns, l.2 = true) →
      Sql.holds (truth w bound ns) (c.tree bound ns) = true) ∧
    ∀ left w w', Conjoined true left → (judged w' left).Sublist (judged w ns) →
      ∃ r', (c.select k (.ofNodes left)).result = .ok r' ∧ r'.Conjoins c bound k.keyword left ∧
        (Sql.holds (truth w bound ns) (c.tree bound ns) = true →
          Sql.holds (truth w' bound left) (c.tree bound left) = true) := by
  intro bound
  have hwhole := conjoins_of_select hns hconjoined h
  refine ⟨hwhole, ?_, ?_⟩
  · intro w hw
    rw [hwhole.holds, knownTruths, List.all_map, List.all_filter]
    refine List.all_eq_true.mpr fun l hl => ?_
    simp [hw l hl]
  · intro left w w' hleft hsublist
    -- what remains has no leaf that the whole filter does not have
    obtain ⟨b, -, hbound, -, -⟩ := select_renders h
    have hleaves : (leavesOf left).Sublist (leavesOf ns) := by
      rw [← map_fst_judged w' left, ← map_fst_judged w ns]
      exact hsublist.map _
    have hverdicts := (c.survey_eq_ok_iff _).mp (survey_of_select h hns)
    obtain ⟨u, hu⟩ := (c.survey_eq_ok_iff (leavesOf left)).mpr
      fun l hl => hverdicts l (hleaves.subset hl)
    have hnodes : (Selection.ofNodes left).effectiveNodes k.textFields = .ok left := rfl
    obtain ⟨r', hr'⟩ := select_of_survey hbound hnodes hu
    have hremaining := conjoins_of_select hnodes hleft hr'
    refine ⟨r', hr', hremaining, fun hholds => ?_⟩
    rw [hwhole.holds, List.all_eq_true] at hholds
    rw [hremaining.holds, List.all_eq_true]
    exact fun b hb => hholds b ((knownTruths_sublist hsublist).subset hb)

/-- Three comparisons joined by `AND` at different depths, the first of all siblings and two whole
scopes having nothing but unknown operators. -/
def conjunctiveNodes : List Node :=
  [.leaf ⟨"ghost", "near", .null, some .or⟩, .leaf ⟨"a", "eq", .int 1, some .and⟩,
    .group [.leaf ⟨"ghost", "near", .null, none⟩,
      .group [.leaf ⟨"b", "ne", .int 2, some .or⟩] (some .and)] (some .and),
    .group [.leaf ⟨"ghost", "near", .null, none⟩] (some .and),
    .leaf ⟨"c", "contains", .text "x", some .and⟩]

/-- The last of the comparisons, in a group of its own. -/
def lastConjunct : List Node := [.group [.leaf ⟨"c", "contains", .text "x", some .and⟩] none]

/-- The clause is true exactly if the three comparisons are, and then the last of them alone is. -/
theorem select_conjunction_of_nested :
    let clause := "WHERE \"a\" = $1 AND ( ( \"b\" != $2 ) ) AND \"c\" ILIKE '%' || $3 || '%'"
    (Selection.ofNodes conjunctiveNodes).effectiveNodes [] = .ok conjunctiveNodes ∧
    Conjoined true conjunctiveNodes ∧
    ((standard.leniently.select {} (.ofNodes conjunctiveNodes)).result =
      .ok ⟨.int standardLimit, .int 0, "", clause, [.int 1, .int 2, .text "x"]⟩) ∧
    (∀ w, (Sql.read 0 clause).map (Sql.holds (truth w 0 conjunctiveNodes)) =
      some (w 1 && (w 3 && w 5))) ∧
    ∀ w, Sql.holds (truth w 0 conjunctiveNodes) (standard.tree 0 conjunctiveNodes) = true →
      Sql.holds (truth (fun _ => w 5) 0 lastConjunct) (standard.tree 0 lastConjunct) = true := by
  intro clause
  have hns : (Selection.ofNodes conjunctiveNodes).effectiveNodes [] = .ok conjunctiveNodes := rfl
  have hconjoined : Conjoined true conjunctiveNodes := by
    simp [Conjoined, ConjoinedInside, Node.joiner, conjunctiveNodes]
  have hselect : (standard.leniently.select {} (.ofNodes conjunctiveNodes)).result =
      .ok ⟨.int standardLimit, .int 0, "", clause, [.int 1, .int 2, .text "x"]⟩ := by
    rfl
  obtain ⟨hwhole, -, hremoved⟩ := select_conjunction hns hconjoined hselect
  refine ⟨hns, hconjoined, hselect, fun w => ?_, fun w => ?_⟩
  · -- of the four leaves the one with the unknown operator does not count
    have hnear : Operator.isKnown "near" = false := by rfl
    have heq : Operator.isKnown "eq" = true := by rfl
    have hne : Operator.isKnown "ne" = true := by rfl
    have hcontains : Operator.isKnown "contains" = true := by rfl
    have htruths : knownTruths w conjunctiveNodes = [w 1, w 3, w 5] := by
      simp [knownTruths, judged, leavesOf, leaves, conjunctiveNodes, hnear, heq, hne, hcontains]
    have hvalue := hwhole.value Sql.isOperator_ilike w
    rw [htruths] at hvalue
    simpa using hvalue
  · -- the last conjunct by itself: its leaf is among those of the whole
    have hlast : Conjoined true lastConjunct := by
      simp [Conjoined, ConjoinedInside, lastConjunct]
    have hsublist : (judged (fun _ => w 5) lastConjunct).Sublist (judged w conjunctiveNodes) :=
      List.sublist_append_right ((judged w conjunctiveNodes).take 5) _
    obtain ⟨r', -, -, hwidens⟩ := hremoved lastConjunct w (fun _ => w 5) hlast hsublist
    exact hwidens

end Compiler

end BoundSql
