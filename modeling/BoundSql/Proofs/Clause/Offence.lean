import BoundSql.Proofs.Clause.Pruning
import BoundSql.Proofs.Refusal

/-!
# Where compiling stops

A checked selection fails to compile only for one of its own leaves: the leaf asks for membership in
an array column of a store without such columns, or its operator is unknown and the compiler is
strict. Leaves are looked at from left to right through all groups, and the first that offends gives
the error; a search for a free text behind the filters has no leaf that offends.

The argument is about the leaves alone. `Compiler.select_eq_survey` takes the pass over the tokens
out of the picture, `Compiler.survey_error_iff` finds the first refusal among the leaves, and the
leaves of the search are cut off by `firstRefusal_append_of_none`.

* `Compiler.Offends` — the two ways in which a leaf offends, with their errors;
* `Compiled.Covers` — what a clause has of the leaves, if there is one;
* `Compiler.error_iff_firstRefusal` — compiling stops at the first leaf that offends, and a clause
  has every leaf with a known operator.
-/

namespace BoundSql

open Node

/-! ### How a leaf offends -/

/-- Membership in an array column is named by two tags, as they are written. -/
theorem Leaf.exists_membership_iff (l : Leaf) :
    (∃ negate, l.form? = some (.membership negate)) ↔
      l.operator = Operator.includes.tag ∨ l.operator = Operator.excludes.tag := by
  unfold Leaf.form?
  constructor
  · rintro ⟨negate, h⟩
    cases hexact : Operator.ofTag? l.operator with
    | none =>
      -- a tag that is none of the twelve can only name a symbol
      rw [Operator.formOf?, hexact] at h
      obtain ⟨sign, -, hsign⟩ := Option.map_eq_some_iff.mp h
      cases hsign
    | some o =>
      have htag : o.tag = l.operator := Operator.ofTag?_eq_some_iff.mp hexact
      have hform : o.form = .membership negate := by
        rw [← htag, Operator.formOf?_tag] at h
        exact Option.some.inj h
      rw [← htag]
      cases o with
      | includes => exact .inl rfl
      | excludes => exact .inr rfl
      | _ => cases hform
  · rintro (h | h)
    · exact ⟨false, by rw [h]; rfl⟩
    · exact ⟨true, by rw [h]; rfl⟩

namespace Compiler

variable (c : Compiler)

/-- **How a leaf offends a compiler**, and the error that says so. -/
inductive Offends (c : Compiler) (l : Leaf) : Error → Prop where
  /-- Membership in an array column is asked of a store that has none. -/
  | unsupported
      (tag : l.operator = Operator.includes.tag ∨ l.operator = Operator.excludes.tag)
      (store : c.dialect.hasMembership = false) :
      Offends c l (.build (.unsupportedOperator l.operator c.dialect.name))
  /-- The operator is unknown, and the compiler drops nothing; the field is the last segment of the
  path. -/
  | unknown (strict : c.strict = true) (operator : l.isUnknown = true) :
      Offends c l (.build
        (.unknownOperator l.operator Operator.sortedTags (some (Path.field l.field))))

/-- A leaf that offends cannot be rendered. -/
theorem verdict_of_offends {l : Leaf} {e : Error} (h : c.Offends l e) :
    ∃ reason, c.verdict l = .fail reason ∧ reason.error = e := by
  unfold verdict
  -- the store lacks memberships, or the compiler is strict and the operator unknown
  cases h with
  | unsupported tag store =>
    obtain ⟨negate, hform⟩ := l.exists_membership_iff.mpr tag
    rw [hform, store]
    exact ⟨_, rfl, rfl⟩
  | unknown strict operator =>
    rw [Leaf.isUnknown_eq, Option.isNone_iff_eq_none] at operator
    rw [operator, strict]
    exact ⟨_, rfl, rfl⟩

/-- Of any other leaf nothing is said but that it is dropped, if its operator is unknown. -/
theorem verdict_of_not_offends {l : Leaf} (h : ∀ e, ¬ c.Offends l e) :
    c.verdict l = ⟨if l.isUnknown then [c.dropNotice l] else [], .ok ()⟩ := by
  have hstrict : l.isUnknown = true → c.strict = false := by
    intro hunknown
    apply Bool.eq_false_iff.mpr
    exact fun hstrict => h _ (.unknown hstrict hunknown)
  have hstore : ∀ negate, l.form? = some (.membership negate) →
      c.dialect.hasMembership = true := by
    intro negate hform
    apply Bool.of_not_eq_false
    exact fun hstore => h _ (.unsupported (l.exists_membership_iff.mp ⟨negate, hform⟩) hstore)
  unfold verdict
  rw [Leaf.isUnknown_eq] at hstrict ⊢
  -- what could refuse a leaf is an unknown operator or a membership, and neither does
  cases hform : l.form? with
  | none =>
    rw [hform] at hstrict
    rw [hstrict rfl]
    rfl
  | some f =>
    cases f with
    | symbol sign => rfl
    | pattern => rfl
    | membership negate =>
      rw [hstore negate hform]
      rfl

/-! ### The leaves from left to right -/

/-- **The first leaf that offends** is the one that ends the survey of the leaves. -/
theorem survey_error_iff (ls : List Leaf) (e : Error) :
    (∃ reason, (c.survey ls).result = .error reason ∧ reason.error = e) ↔
      FirstRefusal c.Offends ls e := by
  induction ls with
  | nil => exact iff_of_false (fun ⟨_, h, _⟩ => nomatch h) (not_firstRefusal_nil e)
  | cons l ls ih =>
    rw [survey, firstRefusal_cons]
    by_cases hl : ∃ e', c.Offends l e'
    · -- the leaves behind are not looked at
      obtain ⟨e', hl⟩ := hl
      obtain ⟨reason, hverdict, rfl⟩ := c.verdict_of_offends hl
      rw [hverdict, Report.fail_bind]
      constructor
      · rintro ⟨_, h, rfl⟩
        rw [← Except.error.inj h]
        exact .inl hl
      · rintro (h | ⟨h, -⟩)
        · obtain ⟨reason', hverdict', rfl⟩ := c.verdict_of_offends h
          rw [hverdict] at hverdict'
          exact ⟨reason', congrArg Report.result hverdict', rfl⟩
        · exact absurd hl (h _)
    · -- the leaf passes, so what is refused is behind it
      have hnone : ∀ e', ¬ c.Offends l e' := not_exists.mp hl
      rw [c.verdict_of_not_offends hnone, Report.bind_of_ok rfl, ← ih]
      constructor
      · exact fun h => .inr ⟨hnone, h⟩
      · rintro (h | ⟨-, h⟩)
        · exact absurd h (hnone e)
        · exact h

/-- **The survey of leaves that pass** has named those that are dropped, from left to right. -/
theorem notices_survey {ls : List Leaf} {u : Unit} (h : (c.survey ls).result = .ok u) :
    (c.survey ls).notices = (ls.filter Leaf.isUnknown).map c.dropNotice := by
  induction ls with
  | nil => rfl
  | cons l ls ih =>
    obtain ⟨u', hl, hls⟩ := Report.result_bind_eq_ok.mp h
    -- a leaf that offends would have ended the survey
    have hnone : ∀ e, ¬ c.Offends l e := by
      intro e he
      obtain ⟨reason, hverdict, -⟩ := c.verdict_of_offends he
      rw [hverdict] at hl
      exact absurd hl nofun
    rw [survey, c.verdict_of_not_offends hnone, Report.bind_of_ok rfl, List.filter_cons]
    show _ ++ (c.survey ls).notices = _
    rw [ih hls]
    cases l.isUnknown <;> rfl

end Compiler

/-! ### The leaves of a search -/

namespace Selection

/-- A search in fields that have names can be made, and has nothing but comparisons with
`contains`. -/
theorem exists_searchLeaves (text : String) (first : Bool) {fields : List String}
    (h : ∀ field ∈ fields, field ≠ "") :
    ∃ ns, searchLeaves text first fields = .ok ns ∧
      ∀ l ∈ leavesOf ns, l.operator = Operator.contains.tag := by
  induction fields generalizing first with
  | nil => exact ⟨[], rfl, fun l hl => absurd hl List.not_mem_nil⟩
  | cons field fields ih =>
    obtain ⟨hfield, hfields⟩ := List.forall_mem_cons.mp h
    obtain ⟨rest, hrest, hleaves⟩ := ih false hfields
    have hname : Check.name (.text field) = .ok field := Check.name_of_asText? rfl hfield
    rw [searchLeaves, hname, hrest]
    exact ⟨_, rfl, List.forall_mem_cons.mpr ⟨rfl, hleaves⟩⟩

/-- **The nodes to compile** are those of the filter, and behind them comparisons with `contains`.
-/
theorem exists_effectiveNodes (s : Selection) {fields : List String}
    (h : ∀ field ∈ fields, field ≠ "") :
    ∃ search, s.effectiveNodes fields = .ok (s.nodes ++ search) ∧
      ∀ l ∈ leavesOf search, l.operator = Operator.contains.tag := by
  by_cases hsearch : s.searchText = none ∨ fields = []
  · -- without a search nothing comes behind the filter
    refine ⟨[], ?_, fun l hl => absurd hl List.not_mem_nil⟩
    rw [effectiveNodes_of_no_search hsearch, List.append_nil]
  · rw [not_or] at hsearch
    obtain ⟨text, htext⟩ := Option.ne_none_iff_exists'.mp hsearch.1
    obtain ⟨field, fields, rfl⟩ := List.exists_cons_of_ne_nil hsearch.2
    -- every field has a name, so each of them gives a leaf
    obtain ⟨leaves, hleaves, hcontains⟩ := exists_searchLeaves text true h
    refine ⟨[.group leaves (if s.nodes.isEmpty then none else some .and)], ?_, ?_⟩
    · unfold effectiveNodes
      rw [htext]
      show (searchLeaves text true (field :: fields)).map _ = _
      rw [hleaves]
      rfl
    · intro l hl
      have hgroup : leavesOf [.group leaves (if s.nodes.isEmpty then none else some .and)] =
          leavesOf leaves := List.append_nil _
      rw [hgroup] at hl
      exact hcontains l hl

end Selection

/-! ### Compiling -/

namespace Compiler

variable (c : Compiler)

/-- A comparison with `contains` never offends. -/
theorem not_offends_of_contains {l : Leaf} (h : l.operator = Operator.contains.tag) (e : Error) :
    ¬ c.Offends l e := by
  rintro (⟨htag, -⟩ | ⟨-, hunknown⟩)
  · rw [h] at htag
    exact absurd htag (by decide)
  · have hform : l.form? = some .pattern := by
      unfold Leaf.form?
      rw [h, Operator.formOf?_tag]
      rfl
    rw [Leaf.isUnknown_eq, hform] at hunknown
    cases hunknown

/-- **Compiling is a survey of the leaves**; the text and the values are known beforehand. -/
theorem select_eq_survey {k : Compilation} {s : Selection} {bound : Nat} {ns : List Node}
    (hbound : k.offset = bound) (hns : s.effectiveNodes k.textFields = .ok ns) :
    c.select k s = ((c.survey (leavesOf ns)).mapError ClauseError.error).map fun _ =>
      ⟨countOr c.limit s.limit, countOr 0 s.offset, c.sortClause s.sort,
        withKeyword k.keyword (Sql.write c.dialect.style
          (Sql.pieces true (outline c.dialect c.aliases bound ns))),
        Node.values ns⟩ := by
  have hoffset : checkOffset k.offset = .ok () := by
    rw [hbound, checkOffset, if_neg (by omega)]
  rw [select, hoffset, Report.ofExcept_ok_bind, assemble, hns, Report.ofExcept_ok_bind, clause,
    hbound, render_eq]
  -- the text and the values are what they are whether the survey passes or not
  generalize c.survey (leavesOf ns) = survey
  obtain ⟨notices, result⟩ := survey
  cases result <;> rfl

end Compiler

/-- **A clause that covers nodes.** No leaf with a known operator is missing from it or is written
in another form than that of its operator. -/
structure Compiled.Covers (r : Compiled) (c : Compiler) (bound : Nat) (keyword : Bool)
    (ns : List Node) : Prop where
  /-- The clause and the values are those of the outline of the nodes. -/
  renders : r.Renders c bound keyword ns
  /-- The outline tests the leaves that are kept, each with the number of its parameter. -/
  tests : Sql.tests (outline c.dialect c.aliases bound ns) =
    (kept ns).mapIdx fun i leaf => Leaf.test c.dialect c.aliases (bound + i + 1) leaf
  /-- These are all leaves with a known operator, from left to right. -/
  leaves : (kept ns).map (·.1) = (leavesOf ns).filter fun l => !l.isUnknown
  /-- A leaf with the tag of an operator is tested in the form of this operator. -/
  forms : ∀ leaf ∈ kept ns, ∀ o : Operator, leaf.1.operator = o.tag → leaf.2 = o.form

theorem Node.map_fst_kept_eq_filter (ns : List Node) :
    (kept ns).map (·.1) = (leavesOf ns).filter fun l => !l.isUnknown := by
  unfold kept
  induction leavesOf ns with
  | nil => rfl
  | cons l ls ih =>
    rw [List.filter_cons, Leaf.isUnknown_eq]
    -- a leaf is kept exactly if its operator has a form
    cases hform : l.form? with
    | none =>
      have hkept : l.kept? = none := by
        rw [Leaf.kept?, hform]
        rfl
      rw [List.filterMap_cons_none hkept, ih]
      rfl
    | some f =>
      have hkept : l.kept? = some (l, f) := by
        rw [Leaf.kept?, hform]
        rfl
      rw [List.filterMap_cons_some hkept, List.map_cons, ih]
      rfl

theorem Compiled.Renders.covers {r : Compiled} {c : Compiler} {bound : Nat} {keyword : Bool}
    {ns : List Node} (h : r.Renders c bound keyword ns) : r.Covers c bound keyword ns := by
  refine ⟨h, tests_outline c.dialect c.aliases bound ns, Node.map_fst_kept_eq_filter ns, ?_⟩
  intro leaf hleaf o htag
  have hform : Operator.formOf? leaf.1.operator = some leaf.2 := form?_of_mem_kept hleaf
  rw [htag, Operator.formOf?_tag] at hform
  exact (Option.some.inj hform).symm

namespace Compiler

variable (c : Compiler)

/-- **Compiling stops at the first leaf that offends.** For any checked selection, behind any number
of parameters and with a search in any fields that have names:

* there is an error exactly if some leaf of the filter offends, and it is that of the first such
  leaf, from left to right through all groups;
* otherwise the clause covers the filter and the search, and exactly the leaves with an unknown
  operator are named as dropped;
* a clause that has a leaf with `includes` or `excludes` is one for a store with array columns;
* of operators in lower case, those are unknown that are none of the twelve.
-/
theorem error_iff_firstRefusal {k : Compilation} (hoffset : 0 ≤ k.offset)
    (hfields : ∀ field ∈ k.textFields, field ≠ "") (s : Selection) :
    (∀ e, (c.select k s).result = .error e ↔ FirstRefusal c.Offends (leavesOf s.nodes) e) ∧
    ((∃ e, (c.select k s).result = .error e) ↔ ∃ l ∈ leavesOf s.nodes, ∃ e, c.Offends l e) ∧
    (∀ r, (c.select k s).result = .ok r →
      (∃ (bound : Nat) (search : List Node), k.offset = bound ∧
        s.effectiveNodes k.textFields = .ok (s.nodes ++ search) ∧
        r.Covers c bound k.keyword (s.nodes ++ search)) ∧
      ((c.select k s).notices = ((leavesOf s.nodes).filter Leaf.isUnknown).map fun l =>
        .droppedLeaf (l.column c.aliases).sql l.operator) ∧
      ∀ l ∈ leavesOf s.nodes, l.operator = Operator.includes.tag ∨
        l.operator = Operator.excludes.tag → c.dialect.hasMembership = true) ∧
    ∀ l : Leaf, Text.lower l.operator = l.operator →
      l.isUnknown = !Operator.isTag l.operator := by
  obtain ⟨bound, hbound⟩ := Int.eq_ofNat_of_zero_le hoffset
  obtain ⟨search, hns, hcontains⟩ := s.exists_effectiveNodes hfields
  -- a search asks for patterns, which every store has
  have hsearch : ∀ l ∈ leavesOf search, ∀ e, ¬ c.Offends l e :=
    fun l hl => c.not_offends_of_contains (hcontains l hl)
  have hselect := c.select_eq_survey hbound hns
  have herror : ∀ e, (c.select k s).result = .error e ↔
      FirstRefusal c.Offends (leavesOf s.nodes) e := by
    intro e
    calc (c.select k s).result = .error e
      _ ↔ ∃ reason, (c.survey (leavesOf (s.nodes ++ search))).result = .error reason ∧
            reason.error = e := by
        rw [hselect, Report.result_map_eq_error, Report.result_mapError_eq_error]
      _ ↔ FirstRefusal c.Offends (leavesOf s.nodes ++ leavesOf search) e := by
        rw [survey_error_iff, leavesOf_append]
      _ ↔ FirstRefusal c.Offends (leavesOf s.nodes) e := firstRefusal_append_of_none hsearch
  have hexists : (∃ e, (c.select k s).result = .error e) ↔
      ∃ l ∈ leavesOf s.nodes, ∃ e, c.Offends l e := by
    rw [← exists_firstRefusal_iff]
    exact exists_congr herror
  refine ⟨herror, hexists, fun r hr => ⟨?_, ?_, ?_⟩, ?_⟩
  · obtain ⟨bound', ns, hbound', hns', hrenders⟩ := select_renders hr
    obtain rfl : s.nodes ++ search = ns := Except.ok.inj (hns.symm.trans hns')
    exact ⟨bound', search, hbound', hns, hrenders.covers⟩
  · rw [hselect] at hr
    obtain ⟨u, hu, -⟩ := Report.result_map_eq_ok.mp hr
    have hnotices := c.notices_survey (Report.result_mapError_eq_ok.mp hu)
    -- the search has no leaf that is dropped
    have hknown : (leavesOf search).filter Leaf.isUnknown = [] := by
      apply List.filter_eq_nil_iff.mpr
      intro l hl hunknown
      rw [Leaf.isUnknown_eq, Leaf.form?, hcontains l hl, Operator.formOf?_tag] at hunknown
      cases hunknown
    have hdropped : (leavesOf (s.nodes ++ search)).filter Leaf.isUnknown =
        (leavesOf s.nodes).filter Leaf.isUnknown := by
      rw [leavesOf_append, List.filter_append, hknown, List.append_nil]
    rw [hselect, ← hdropped]
    exact hnotices
  · -- a membership that the store lacks would have been refused
    intro l hl htag
    apply Bool.of_not_eq_false
    intro hstore
    obtain ⟨e, he⟩ := hexists.mpr ⟨l, hl, _, .unsupported htag hstore⟩
    rw [hr] at he
    cases he
  · intro l hlower
    rw [Leaf.isUnknown, Operator.isKnown_of_lower hlower]

/-- A known operator, membership of a nested path, and two unknown operators; behind them a text to
search for. -/
def mixedOperators : Selection :=
  { Selection.everything with
    filters := some [.leaf ⟨"a", "eq", .int 1, none⟩,
      .group [.leaf ⟨"pets.tags", "includes", .text "x", none⟩,
        .leaf ⟨"pets.bornOn", "near", .null, some .or⟩] (some .and),
      .leaf ⟨"b", "like", .int 2, some .or⟩]
    freeText := some "x" }

/-- A strict compiler for a store without array columns. -/
def withoutArrays : Compiler := { dialect := .sqlite, strict := true }

/-- What the four leaves and the search are compiled to for a store with array columns, if the two
with an unknown operator are dropped. -/
def mixedCompiled : Compiled :=
  ⟨.int standardLimit, .int 0, "",
    "WHERE \"a\" = $3 AND ( $4 = ANY(\"pet\".\"tags\") ) AND ( \"name\" ILIKE '%' || $5 || '%' )",
    [.int 1, .text "x", .text "x"]⟩

/-- Without array columns the membership is the end, though an unknown operator stands behind it in
its group; with them that operator is the end of strict compiling, and a lenient compiler goes on.
-/
theorem error_iff_firstRefusal_of_mixedOperators :
    (0 : Int) ≤ 2 ∧ (∀ field ∈ ["name"], field ≠ "") ∧
    (withoutArrays.select { textFields := ["name"], offset := 2 } mixedOperators).result =
      .error (.build (.unsupportedOperator "includes" "sqlite")) ∧
    (standard.strictly.select { textFields := ["name"], offset := 2 } mixedOperators).result =
      .error (.build (.unknownOperator "near" Operator.sortedTags (some "bornOn"))) ∧
    (standard.leniently.select { textFields := ["name"], offset := 2 } mixedOperators).result =
      .ok mixedCompiled ∧
    (standard.leniently.select { textFields := ["name"], offset := 2 } mixedOperators).notices =
      [.droppedLeaf "\"pet\".\"born_on\"" "near", .droppedLeaf "\"b\"" "like"] := by
  have hoffset : (0 : Int) ≤ 2 := by decide
  have hfields : ∀ field ∈ ["name"], field ≠ "" := by decide
  -- the first leaf is an equality, which no compiler refuses
  have hfirst : ∀ e, ¬ withoutArrays.Offends ⟨"a", "eq", .int 1, none⟩ e := by
    rintro e (⟨htag, -⟩ | ⟨-, hunknown⟩)
    · exact absurd htag (by decide)
    · exact absurd hunknown (by decide)
  have hrefused : FirstRefusal withoutArrays.Offends (leavesOf mixedOperators.nodes)
      (.build (.unsupportedOperator "includes" "sqlite")) :=
    firstRefusal_cons.mpr
      (.inr ⟨hfirst, firstRefusal_cons.mpr (.inl (.unsupported (.inl rfl) rfl))⟩)
  obtain ⟨herror, -⟩ := error_iff_firstRefusal withoutArrays
    (k := { textFields := ["name"], offset := 2 }) hoffset hfields mixedOperators
  obtain ⟨-, -, hcovered, -⟩ := error_iff_firstRefusal standard.leniently
    (k := { textFields := ["name"], offset := 2 }) hoffset hfields mixedOperators
  have hresult : (standard.leniently.select { textFields := ["name"], offset := 2 }
      mixedOperators).result = .ok mixedCompiled := by
    rfl
  obtain ⟨-, hnotices, -⟩ := hcovered _ hresult
  -- the notices of a lenient compiler are the leaves it dropped
  refine ⟨hoffset, hfields, (herror _).mpr hrefused, by rfl, hresult, ?_⟩
  rw [hnotices]
  rfl

/-- **A tag in upper case** that was given as bytes keeps its case. It is none of the twelve, and a
strict compiler takes it for a symbol all the same. -/
theorem not_error_of_upper_tag :
    ¬ ∀ (c : Compiler) (k : Compilation) (raw : Value) (s : Selection),
      Selection.check raw = .ok s → 0 ≤ k.offset → (∀ field ∈ k.textFields, field ≠ "") →
      ((∃ e, (c.select k s).result = .error e) ↔ ∃ l ∈ leavesOf s.nodes,
        ((l.operator = Operator.includes.tag ∨ l.operator = Operator.excludes.tag) ∧
          c.dialect.hasMembership = false) ∨
        (c.strict = true ∧ Operator.isTag l.operator = false)) := by
  intro h
  have hcheck : Selection.check (bytesTag [69, 81]) = .ok (oneComparison "EQ") := by
    rfl
  have hresult : (standard.strictly.select {} (oneComparison "EQ")).result =
      .ok ⟨.int standardLimit, .int 0, "", "WHERE \"a\" = $1", [.int 1]⟩ := by
    rfl
  have hleaf : ∃ l ∈ leavesOf (oneComparison "EQ").nodes,
      ((l.operator = Operator.includes.tag ∨ l.operator = Operator.excludes.tag) ∧
        standard.strictly.dialect.hasMembership = false) ∨
      (standard.strictly.strict = true ∧ Operator.isTag l.operator = false) :=
    ⟨⟨"a", "EQ", .int 1, none⟩, List.mem_cons_self, .inr ⟨rfl, by decide⟩⟩
  -- the condition holds of the leaf, and yet it is compiled
  obtain ⟨e, he⟩ := (h standard.strictly {} _ _ hcheck (by decide) (by decide)).mpr hleaf
  rw [hresult] at he
  cases he

end Compiler

end BoundSql
