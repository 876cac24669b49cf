import BoundSql.Proofs.Clause.FreeText
import BoundSql.Proofs.Clause.Grammar
import BoundSql.Proofs.Clause.Strictness

/-!
# Lenient compiling as strict compiling of less

A lenient compiler drops leaves while it renders, a scope at a time. It compiles what a strict
compiler compiles once the leaves with an unknown operator are deleted beforehand, and with them,
from the inside out, the groups they leave empty.

Which operators are known is decided by their tags: the tag of any operator is known as it is
written, and in another case too if it is that of an operator written as a symbol.

* `Operator.isKnown_eq` — the known tags are those that name a form;
* `Node.prune_eq_cut` — what is left of a filter, as a tree with its unknown leaves cut out;
* `Node.leavesOf_cut`, `Node.outline_cut` — its leaves, and its outline;
* `Compiler.leniently_select_eq` — the two compilers, with the notices of the lenient one.
-/

namespace BoundSql

/-! ### Known operators -/

namespace Operator

theorem ofTag?_eq_some_iff {tag : String} {o : Operator} : ofTag? tag = some o ↔ o.tag = tag := by
  constructor
  · intro h
    have hfound : (o.tag == tag) = true := List.find?_some (p := fun o : Operator => o.tag == tag) h
    exact eq_of_beq hfound
  · rintro rfl
    cases o <;> rfl

theorem mem_all (o : Operator) : o ∈ all := by
  cases o <;> decide

/-- Whether a tag names an operator, being its tag or, for an operator written as a symbol, its tag
in another case. -/
def isKnown (tag : String) : Bool :=
  all.any fun o => o.tag == tag || (o.symbol?.isSome && o.tag == Text.lower tag)

theorem isKnown_iff {tag : String} :
    isKnown tag = true ↔
      ∃ o : Operator, o.tag = tag ∨ (o.symbol?.isSome ∧ o.tag = Text.lower tag) := by
  simp [isKnown, mem_all]

theorem symbolOf?_isSome_iff {tag : String} :
    (symbolOf? tag).isSome ↔ ∃ o : Operator, o.symbol?.isSome ∧ o.tag = Text.lower tag := by
  rw [symbolOf?]
  constructor
  · intro h
    obtain ⟨sign, hsign⟩ := Option.isSome_iff_exists.mp h
    obtain ⟨o, ho, hsymbol⟩ := Option.bind_eq_some_iff.mp hsign
    exact ⟨o, by rw [hsymbol]; rfl, ofTag?_eq_some_iff.mp ho⟩
  · rintro ⟨o, hsymbol, ho⟩
    rw [ofTag?_eq_some_iff.mpr ho]
    exact hsymbol

/-- **The known tags are those that name a form.** -/
theorem isKnown_eq (tag : String) : isKnown tag = (formOf? tag).isSome := by
  rw [Bool.eq_iff_iff, isKnown_iff]
  cases hexact : ofTag? tag with
  | none =>
    -- no operator has this tag as it is written, so it can only name a symbol
    have hform : (formOf? tag).isSome = (symbolOf? tag).isSome := by
      rw [formOf?, hexact]
      exact Option.isSome_map
    have hne : ∀ o : Operator, o.tag ≠ tag := by
      intro o ho
      rw [ofTag?_eq_some_iff.mpr ho] at hexact
      cases hexact
    rw [hform, symbolOf?_isSome_iff]
    simp [hne]
  | some o =>
    -- the tag is that of an operator, and names its form
    obtain rfl := ofTag?_eq_some_iff.mp hexact
    rw [formOf?_tag]
    exact ⟨fun _ => rfl, fun _ => ⟨o, .inl rfl⟩⟩

/-- Whether a tag is one of the twelve, as it is written. -/
def isTag (tag : String) : Bool := (all.map Operator.tag).contains tag

/-- In lower case the known tags are the twelve. -/
theorem isKnown_of_lower {tag : String} (h : Text.lower tag = tag) : isKnown tag = isTag tag := by
  rw [Bool.eq_iff_iff, isKnown_iff, h, isTag, List.contains_iff_mem, List.mem_map]
  constructor
  · rintro ⟨o, ho | ⟨-, ho⟩⟩
    · exact ⟨o, mem_all o, ho⟩
    · exact ⟨o, mem_all o, ho⟩
  · rintro ⟨o, -, ho⟩
    exact ⟨o, .inl ho⟩

end Operator

/-- Whether a leaf has an unknown operator. -/
def Leaf.isUnknown (l : Leaf) : Bool := !Operator.isKnown l.operator

theorem Leaf.isUnknown_eq (l : Leaf) : l.isUnknown = l.form?.isNone := by
  rw [isUnknown, Operator.isKnown_eq, form?]
  exact Option.not_isSome _

/-! ### Cutting leaves out -/

namespace Node

mutual

/-- What is left of a node when the leaves with a property are deleted: a group goes if nothing is
left in it. -/
def cutOf? (gone : Leaf → Bool) : Node → Option Node
  | leaf l => if gone l then none else some (leaf l)
  | group children j => group? j (cut gone children)

/-- What is left of siblings when the leaves with a property are deleted. -/
def cut (gone : Leaf → Bool) : List Node → List Node
  | [] => []
  | n :: ns => (cutOf? gone n).toList ++ cut gone ns

end

theorem cut_leaf_cons (gone : Leaf → Bool) (l : Leaf) (ns : List Node) :
    cut gone (leaf l :: ns) = (if gone l then [] else [leaf l]) ++ cut gone ns := by
  rw [cut, cutOf?]
  cases gone l <;> rfl

theorem cut_group_cons (gone : Leaf → Bool) (children ns : List Node) (j : Option Joiner) :
    cut gone (group children j :: ns) =
      (group? j (cut gone children)).toList ++ cut gone ns := by
  rw [cut, cutOf?]

theorem leavesOf_group? (j : Option Joiner) (ns : List Node) :
    leavesOf (group? j ns).toList = leavesOf ns := by
  cases ns with
  | nil => rfl
  | cons n ns => exact List.append_nil _

/-- **The leaves that are left** are those without the property, in the same order. -/
theorem leavesOf_cut (gone : Leaf → Bool) (ns : List Node) :
    leavesOf (cut gone ns) = (leavesOf ns).filter fun l => !gone l := by
  induction ns using forest_induction with
  | nil => rfl
  | leaf l ns ih =>
    have hleaves : leavesOf (leaf l :: ns) = l :: leavesOf ns := rfl
    rw [cut_leaf_cons, leavesOf_append, ih, hleaves, List.filter_cons]
    cases gone l <;> rfl
  | group children j ns ihInner ih =>
    -- a group that loses all its leaves goes with them
    have hleaves : leavesOf (group children j :: ns) = leavesOf children ++ leavesOf ns := rfl
    rw [cut_group_cons, leavesOf_append, leavesOf_group?, ihInner, ih, hleaves,
      List.filter_append]

/-- What is left depends on the leaves of the siblings alone. -/
theorem cut_congr {gone gone' : Leaf → Bool} {ns : List Node}
    (h : ∀ l ∈ leavesOf ns, gone l = gone' l) : cut gone ns = cut gone' ns := by
  induction ns using forest_induction with
  | nil => rfl
  | leaf l ns ih =>
    obtain ⟨hl, hns⟩ := List.forall_mem_cons.mp h
    rw [cut_leaf_cons, cut_leaf_cons, hl, ih hns]
  | group children j ns ihInner ih =>
    obtain ⟨hchildren, hns⟩ := List.forall_mem_append.mp h
    rw [cut_group_cons, cut_group_cons, ihInner hchildren, ih hns]

/-- **What is left of a filter** is the filter without its leaves with an unknown operator. -/
theorem prune_eq_cut (ns : List Node) : prune ns = cut Leaf.isUnknown ns := by
  induction ns using forest_induction with
  | nil => rfl
  | leaf l ns ih =>
    rw [cut_leaf_cons, Leaf.isUnknown_eq]
    cases hform : l.form? with
    | none => rw [prune_leaf_of_dropped hform, ih]; rfl
    | some f => rw [prune_leaf_of_kept hform, ih]; rfl
  | group children j ns ihInner ih => rw [prune_group_cons, cut_group_cons, ihInner, ih]

/-- Leaves with an unknown operator are not among those that are kept. -/
theorem kept_of_leavesOf {left ns : List Node}
    (h : leavesOf left = (leavesOf ns).filter fun l => !l.isUnknown) : kept left = kept ns := by
  rw [kept, h, List.filterMap_filter, kept]
  congr 1
  funext l
  rw [Leaf.isUnknown_eq, Leaf.kept?]
  cases l.form? <;> rfl

theorem kept_cut (ns : List Node) : kept (cut Leaf.isUnknown ns) = kept ns :=
  kept_of_leavesOf (leavesOf_cut _ ns)

theorem outline_group? (d : Dialect) (aliases : Aliases) (bound : Nat) (j : Option Joiner)
    (ns : List Node) :
    outline d aliases bound (group? j ns).toList =
      (Sql.Term.group? j (outline d aliases bound ns)).toList := by
  cases ns with
  | nil => rfl
  | cons n ns =>
    show outline d aliases bound [group (n :: ns) j] = _
    rw [outline_group_cons, outline_nil, List.append_nil]

theorem kept_group? (j : Option Joiner) (ns : List Node) :
    kept (group? j ns).toList = kept ns := by
  rw [kept, leavesOf_group?, kept]

/-- **The outline** of what is left is that of the whole filter. -/
theorem outline_cut (d : Dialect) (aliases : Aliases) (bound : Nat) (ns : List Node) :
    outline d aliases bound (cut Leaf.isUnknown ns) = outline d aliases bound ns := by
  induction ns using forest_induction generalizing bound with
  | nil => rfl
  | leaf l ns ih =>
    rw [cut_leaf_cons, Leaf.isUnknown_eq]
    cases hform : l.form? with
    | none =>
      rw [outline_leaf_of_dropped d aliases bound hform]
      exact ih bound
    | some f =>
      show outline d aliases bound (leaf l :: cut _ ns) = _
      rw [outline_leaf_of_kept d aliases bound hform, outline_leaf_of_kept d aliases bound hform,
        ih]
  | group children j ns ihInner ih =>
    -- the siblings behind the group are numbered on from the same leaves
    rw [cut_group_cons, outline_append, outline_group?, kept_group?, ihInner, ih, kept_cut,
      outline_group_cons]

end Node

open Node

/-! ### Compiling what is left -/

namespace Node

/-- Nodes that can be compiled in place of others: they have the leaves of these, but for those with
an unknown operator, and they have the same clause. -/
structure LeftOf (left ns : List Node) : Prop where
  leaves : leavesOf left = (leavesOf ns).filter fun l => !l.isUnknown
  clause : ∀ (c : Compiler) (bound : Nat),
    Sql.settle true (outline c.dialect c.aliases bound left) =
      Sql.settle true (outline c.dialect c.aliases bound ns)

theorem leftOf_cut (ns : List Node) : LeftOf (cut Leaf.isUnknown ns) ns :=
  ⟨leavesOf_cut _ ns, fun c bound => by rw [outline_cut]⟩

end Node

namespace Selection

/-- A selection whose filter has lost the leaves with a property. -/
def cut (gone : Leaf → Bool) (s : Selection) : Selection :=
  { s with filters := s.filters.map (Node.cut gone) }

theorem nodes_cut (gone : Leaf → Bool) (s : Selection) :
    (s.cut gone).nodes = Node.cut gone s.nodes := by
  unfold nodes cut
  cases s.filters <;> rfl

theorem effectiveNodes_of_no_search {s : Selection} {fields : List String}
    (h : s.searchText = none ∨ fields = []) : s.effectiveNodes fields = .ok s.nodes := by
  unfold effectiveNodes
  rcases h with h | rfl
  · rw [h]
  · cases s.searchText <;> rfl

/-- The leaves of a search have a known operator. -/
theorem isUnknown_of_mem_search {text field : String} {fields : List String} {j : Option Joiner}
    {l : Leaf} (h : l ∈ leavesOf [.group
      (searchLeaf text none field :: fields.map (searchLeaf text (some .or))) j]) :
    l.isUnknown = false := by
  -- every leaf of a search asks for `contains`
  have hleaf : ∀ j field,
      Leaf.isUnknown ⟨field, Operator.contains.tag, .text text, j⟩ = false := by
    intro j field
    rw [Leaf.isUnknown_eq]
    rfl
  have hleaves : ∀ fields : List String,
      ∀ l ∈ leavesOf (fields.map (searchLeaf text (some .or))), l.isUnknown = false := by
    intro fields
    induction fields with
    | nil => exact fun l hl => nomatch hl
    | cons field fields ih => exact List.forall_mem_cons.mpr ⟨hleaf _ _, ih⟩
  have hgroup : leavesOf [.group
      (searchLeaf text none field :: fields.map (searchLeaf text (some .or))) j] =
      ⟨field, Operator.contains.tag, .text text, none⟩ ::
        leavesOf (fields.map (searchLeaf text (some .or))) := List.append_nil _
  rw [hgroup] at h
  rcases List.mem_cons.mp h with rfl | h
  · exact hleaf none field
  · exact hleaves fields l h

/-- **The nodes to compile** of a selection whose unknown leaves are cut out, with the search for
its text behind them, are left of those of the whole selection.

The search may have another joiner in front of it, if all nodes before it are gone; but then it
stands first, where no joiner shows. -/
theorem leftOf_of_effectiveNodes {s : Selection} {fields : List String} {left ns : List Node}
    (hns : s.effectiveNodes fields = .ok ns)
    (hleft : (s.cut Leaf.isUnknown).effectiveNodes fields = .ok left) :
    LeftOf left ns ∧
      (leavesOf ns).filter Leaf.isUnknown = (leavesOf s.nodes).filter Leaf.isUnknown := by
  have hsame : (s.cut Leaf.isUnknown).searchText = s.searchText := rfl
  by_cases hsearch : s.searchText = none ∨ fields = []
  · obtain rfl := Except.ok.inj (hns.symm.trans (effectiveNodes_of_no_search hsearch))
    obtain rfl := Except.ok.inj
      (hleft.symm.trans (effectiveNodes_of_no_search (hsame ▸ hsearch)))
    rw [nodes_cut]
    exact ⟨leftOf_cut _, rfl⟩
  · rw [not_or] at hsearch
    obtain ⟨text, htext⟩ := Option.ne_none_iff_exists'.mp hsearch.1
    obtain ⟨field, fields, rfl⟩ := List.exists_cons_of_ne_nil hsearch.2
    obtain rfl := effectiveNodes_of_search htext hns
    obtain rfl := effectiveNodes_of_search (hsame.trans htext) hleft
    rw [nodes_cut]
    refine ⟨⟨?_, ?_⟩, ?_⟩
    · -- all leaves of the search are left
      rw [leavesOf_append, leavesOf_append, List.filter_append, leavesOf_cut]
      refine congrArg _ (Eq.symm (List.filter_eq_self.mpr fun l hl => ?_))
      rw [isUnknown_of_mem_search hl]
      rfl
    · intro c bound
      rw [Compiler.settle_outline_search, Compiler.settle_outline_search, outline_cut, kept_cut]
    · -- and none of them is deleted
      rw [leavesOf_append, List.filter_append]
      refine (congrArg _ (List.filter_eq_nil_iff.mpr fun l hl => ?_)).trans (List.append_nil _)
      rw [isUnknown_of_mem_search hl]
      exact Bool.false_ne_true

/-- Whether a search can be made depends on its fields alone. -/
theorem map_effectiveNodes_cut (gone : Leaf → Bool) (s : Selection) (fields : List String) :
    ((s.cut gone).effectiveNodes fields).map (fun _ => ()) =
      (s.effectiveNodes fields).map fun _ => () := by
  by_cases hsearch : s.searchText = none ∨ fields = []
  · -- what is cut are nodes of the filter: the text and the fields stay
    have hcut : (s.cut gone).searchText = none ∨ fields = [] := hsearch
    rw [effectiveNodes_of_no_search hcut, effectiveNodes_of_no_search hsearch]
    rfl
  · rw [not_or] at hsearch
    obtain ⟨text, htext⟩ := Option.ne_none_iff_exists'.mp hsearch.1
    obtain ⟨field, fields, rfl⟩ := List.exists_cons_of_ne_nil hsearch.2
    have hcut : (s.cut gone).searchText = some text := htext
    unfold effectiveNodes
    rw [htext, hcut]
    show Except.map _ (Except.map _ (searchLeaves text true (field :: fields))) =
      Except.map _ (Except.map _ (searchLeaves text true (field :: fields)))
    -- the same fields are searched in both
    cases searchLeaves text true (field :: fields) <;> rfl

end Selection

namespace Compiler

variable (c : Compiler)

/-- The notice that a leaf is dropped. -/
def dropNotice (l : Leaf) : Notice := .droppedLeaf (l.column c.aliases).sql l.operator

theorem verdict_of_unknown {l : Leaf} (h : l.isUnknown = true) :
    c.leniently.verdict l = ⟨[c.dropNotice l], .ok ()⟩ := by
  rw [Leaf.isUnknown_eq, Option.isNone_iff_eq_none] at h
  rw [verdict, h]
  rfl

/-- A leaf with a known operator is judged alike, and without a notice. -/
theorem verdict_of_known {l : Leaf} (h : l.isUnknown = false) :
    c.leniently.verdict l = c.strictly.verdict l ∧ (c.leniently.verdict l).notices = [] := by
  rw [Leaf.isUnknown_eq, Option.isNone_eq_false_iff] at h
  obtain ⟨f, hf⟩ := Option.isSome_iff_exists.mp h
  rw [verdict, verdict, hf]
  -- where the operator has a form, strictness is not asked for
  cases f with
  | symbol sign => exact ⟨rfl, rfl⟩
  | membership negate =>
    refine ⟨rfl, ?_⟩
    show (if c.dialect.hasMembership then _ else _ : Report ClauseError Unit).notices = []
    split <;> rfl
  | pattern => exact ⟨rfl, rfl⟩

/-- **What a lenient compiler says of leaves** is what a strict one says of them without those that
have an unknown operator; where it comes to an end, it has said of these that they are dropped. -/
theorem survey_leniently (ls : List Leaf) :
    (c.leniently.survey ls).result =
        (c.strictly.survey (ls.filter fun l => !l.isUnknown)).result ∧
      ∀ u, (c.leniently.survey ls).result = .ok u →
        (c.leniently.survey ls).notices = (ls.filter Leaf.isUnknown).map c.dropNotice := by
  induction ls with
  | nil => exact ⟨rfl, fun _ _ => rfl⟩
  | cons l ls ih =>
    obtain ⟨hresult, hnotices⟩ := ih
    rw [survey, List.filter_cons, List.filter_cons]
    cases hl : l.isUnknown with
    | true =>
      -- the strict compiler does not come to see the leaf
      rw [verdict_of_unknown c hl]
      refine ⟨hresult, fun u hu => ?_⟩
      exact congrArg (c.dropNotice l :: ·) (hnotices u hu)
    | false =>
      obtain ⟨hsame, hquiet⟩ := verdict_of_known c hl
      show _ = (c.strictly.survey (l :: ls.filter fun l => !l.isUnknown)).result ∧ _
      rw [survey, ← hsame]
      cases hverdict : (c.leniently.verdict l).result with
      | error e =>
        rw [Report.bind_of_error hverdict, Report.bind_of_error hverdict]
        refine ⟨rfl, fun u hu => ?_⟩
        cases hu
      | ok u =>
        rw [Report.bind_of_ok hverdict, Report.bind_of_ok hverdict, hquiet]
        exact ⟨hresult, hnotices⟩

/-- **The clause of nodes** is, for a lenient compiler, that of the nodes left of them for a strict
one. -/
theorem clause_leniently {left ns : List Node} (h : LeftOf left ns) (bound : Nat) :
    (c.leniently.clause bound ns).result = (c.strictly.clause bound left).result ∧
      ∀ clause, (c.leniently.clause bound ns).result = .ok clause →
        (c.leniently.clause bound ns).notices =
          ((leavesOf ns).filter Leaf.isUnknown).map c.dropNotice := by
  obtain ⟨hresult, hnotices⟩ := c.survey_leniently (leavesOf ns)
  have hvalues : Node.values left = Node.values ns := by
    rw [Node.values, kept_of_leavesOf h.leaves, Node.values]
  -- without its joiner in front a first node is written alike, whichever it had
  have htext : Sql.pieces true (outline c.dialect c.aliases bound left) =
      Sql.pieces true (outline c.dialect c.aliases bound ns) := by
    rw [← Sql.pieces_settle, h.clause c bound, Sql.pieces_settle]
  have hlenient := c.leniently.render_eq bound ns
  have hstrict := c.strictly.render_eq bound left
  rw [h.leaves, hvalues] at hstrict
  constructor
  · rw [clause, clause, Report.mapError, Report.mapError, hlenient, hstrict, Report.map,
      Report.map, hresult]
    show _ = Except.mapError _ (Except.map (fun _ => (Sql.write c.dialect.style
      (Sql.pieces true (outline c.dialect c.aliases bound left)), Node.values ns)) _)
    rw [htext]
    rfl
  · intro clause hclause
    -- a strict compiler of what is left has nothing to name
    have hrender := Report.result_mapError_eq_ok.mp hclause
    rw [hlenient] at hrender
    obtain ⟨u, hu, -⟩ := Report.result_map_eq_ok.mp hrender
    rw [Compiler.clause, Report.mapError, hlenient]
    exact hnotices u hu

/-- **Lenient compiling is strict compiling of less.** For any selection and compiler:

* what a lenient compiler makes of the selection, a result or an error, is what a strict one makes
  of it once the leaves with an unknown operator are deleted, and from the inside out the groups
  that nothing is left in;
* where there is a result, the lenient one has left one warning for each leaf that is deleted, from
  left to right, with the column and the operator of the leaf, and no other notice;
* if all operators are in lower case, the leaves that are deleted are those whose operator is none
  of the twelve.
-/
theorem leniently_select_eq (k : Compilation) (s : Selection) :
    (c.leniently.select k s).result = (c.strictly.select k (s.cut Leaf.isUnknown)).result ∧
    (∀ r, (c.leniently.select k s).result = .ok r →
      ((c.leniently.select k s).notices =
        ((leavesOf s.nodes).filter Leaf.isUnknown).map fun l =>
          .droppedLeaf (l.column c.aliases).sql l.operator) ∧
      ∀ n ∈ (c.leniently.select k s).notices, n.severity = .warning) ∧
    ((∀ l ∈ leavesOf s.nodes, Text.lower l.operator = l.operator) →
      s.cut Leaf.isUnknown = s.cut fun l => !Operator.isTag l.operator) := by
  have hmain : (c.leniently.select k s).result =
        (c.strictly.select k (s.cut Leaf.isUnknown)).result ∧
      ∀ r, (c.leniently.select k s).result = .ok r →
        (c.leniently.select k s).notices =
          ((leavesOf s.nodes).filter Leaf.isUnknown).map c.dropNotice := by
    rw [select, select]
    cases hoffset : checkOffset k.offset with
    | error e => exact ⟨rfl, fun r hr => nomatch hr⟩
    | ok u =>
      obtain ⟨bound, hbound⟩ := exists_of_checkOffset hoffset
      rw [Report.ofExcept_ok_bind, Report.ofExcept_ok_bind, assemble, assemble, hbound]
      -- either both searches fail on a field without a name, and alike, or both have their nodes
      rcases Report.error_or_ok_of_map_eq
          (s.map_effectiveNodes_cut Leaf.isUnknown k.textFields) with
        ⟨e, hleft, hns⟩ | ⟨left, ns, hleft, hns, -⟩
      · rw [hleft, hns]
        exact ⟨rfl, fun r hr => nomatch hr⟩
      · obtain ⟨hlefts, hdeleted⟩ := Selection.leftOf_of_effectiveNodes hns hleft
        obtain ⟨hresult, hnotices⟩ := c.clause_leniently hlefts bound
        rw [hleft, hns, Report.ofExcept_ok_bind, Report.ofExcept_ok_bind]
        refine ⟨congrArg (Except.map _) hresult, fun r hr => ?_⟩
        obtain ⟨clause, hclause, -⟩ := Report.result_map_eq_ok.mp hr
        -- the search adds no leaf to those that are deleted
        rw [← hdeleted]
        exact hnotices clause hclause
  obtain ⟨hresult, hnotices⟩ := hmain
  refine ⟨hresult, fun r hr => ⟨hnotices r hr, ?_⟩, fun hlower => ?_⟩
  · rw [hnotices r hr]
    exact List.forall_mem_map.mpr fun l _ => rfl
  · rw [Selection.cut, Selection.cut]
    have hsame : ∀ l ∈ leavesOf s.nodes, l.isUnknown = !Operator.isTag l.operator := by
      intro l hl
      rw [Leaf.isUnknown, Operator.isKnown_of_lower (hlower l hl)]
    unfold Selection.nodes at hsame
    cases hfilters : s.filters with
    | none => rfl
    | some ns =>
      rw [hfilters] at hsame
      exact congrArg (fun left => { s with filters := some left }) (cut_congr hsame)

/-- A leaf with an unknown operator, and a group with nothing in it but a group of another one;
behind them a text to search for. -/
def vanishingWithText : Selection :=
  { Selection.everything with
    filters := some [.leaf ⟨"pets.Born", "near", .null, none⟩,
      .group [.group [.leaf ⟨"ghost", "like", .int 1, none⟩] none] (some .or)]
    freeText := some "x" }

/-- Nothing is left of the filter, so the search comes to stand first and shows no joiner. -/
theorem leniently_select_eq_of_vanishing :
    let clause := "WHERE ( \"name\" ILIKE '%' || $3 || '%' )"
    let r : Compiled := ⟨.int standardLimit, .int 0, "", clause, [.text "x"]⟩
    let k : Compilation := { textFields := ["name"], offset := 2 }
    vanishingWithText.cut Leaf.isUnknown =
      { Selection.everything with filters := some [], freeText := some "x" } ∧
    (standard.strictly.select k (vanishingWithText.cut Leaf.isUnknown)).result = .ok r ∧
    (standard.leniently.select k vanishingWithText).result = .ok r ∧
    ((standard.leniently.select k vanishingWithText).notices =
      [.droppedLeaf "\"pet\".\"born\"" "near", .droppedLeaf "\"ghost\"" "like"]) ∧
    vanishingWithText.cut Leaf.isUnknown =
      vanishingWithText.cut fun l => !Operator.isTag l.operator := by
  intro clause r k
  have hcut : vanishingWithText.cut Leaf.isUnknown =
      { Selection.everything with filters := some [], freeText := some "x" } := by
    rfl
  -- the tags are in lower case, so those that are cut are those that are no tags
  have hlower : ∀ l ∈ leavesOf vanishingWithText.nodes, Text.lower l.operator = l.operator := by
    intro l hl
    rcases List.mem_cons.mp hl with rfl | hl
    · rfl
    · rw [List.mem_singleton.mp hl]
      rfl
  have hstrict : (standard.strictly.select k (vanishingWithText.cut Leaf.isUnknown)).result =
      .ok r := by
    rw [hcut]
    rfl
  obtain ⟨hresult, hnotices, htags⟩ := leniently_select_eq standard k vanishingWithText
  have hlenient : (standard.leniently.select k vanishingWithText).result = .ok r :=
    hresult.trans hstrict
  refine ⟨hcut, hstrict, hlenient, ?_, htags hlower⟩
  rw [(hnotices r hlenient).1]
  rfl

/-- A comparison as raw data, its operator given as bytes. -/
def bytesTag (tag : List UInt8) : Value :=
  .map [(.text "filters", .list [.map [(.text "field", .text "a"),
    (.text "operator", .bytes tag), (.text "value", .int 1)]])]

/-- The selection that raw data with one comparison passes as. -/
def oneComparison (tag : String) : Selection := .ofNodes [.leaf ⟨"a", tag, .int 1, none⟩]

/-- **Tags in upper case.** A tag given as bytes keeps its case. That of a symbol is known all the
same, so it does not do to delete whatever is none of the twelve tags; that of a pattern is not, so
it does not do either to delete whatever is none of them in lower case. -/
theorem not_leniently_select_eq_of_tags :
    (¬ ∀ (c : Compiler) (k : Compilation) (raw : Value) (s : Selection),
      Selection.check raw = .ok s →
      (c.leniently.select k s).result =
        (c.strictly.select k (s.cut fun l => !Operator.isTag l.operator)).result) ∧
    ¬ ∀ (c : Compiler) (k : Compilation) (raw : Value) (s : Selection),
      Selection.check raw = .ok s →
      (c.leniently.select k s).result =
        (c.strictly.select k (s.cut fun l => !Operator.isTag (Text.lower l.operator))).result := by
  constructor
  · -- `EQ` from bytes is known without being a tag
    intro h
    have hcheck : Selection.check (bytesTag [69, 81]) = .ok (oneComparison "EQ") := by
      rfl
    have hlenient : (standard.leniently.select {} (oneComparison "EQ")).result =
        .ok ⟨.int standardLimit, .int 0, "", "WHERE \"a\" = $1", [.int 1]⟩ := by
      rfl
    have hstrict : (standard.strictly.select {}
          ((oneComparison "EQ").cut fun l => !Operator.isTag l.operator)).result =
        .ok ⟨.int standardLimit, .int 0, "", "", []⟩ := by
      rfl
    have hsame := h standard {} _ _ hcheck
    rw [hlenient, hstrict] at hsame
    exact absurd (congrArg Compiled.whereClause (Except.ok.inj hsame)) (by decide)
  · -- `CONTAINS` from bytes is unknown though it is a tag in lower case
    intro h
    have hcheck : Selection.check (bytesTag [67, 79, 78, 84, 65, 73, 78, 83]) =
        .ok (oneComparison "CONTAINS") := by
      rfl
    have hlenient : (standard.leniently.select {} (oneComparison "CONTAINS")).result =
        .ok ⟨.int standardLimit, .int 0, "", "", []⟩ := by
      rfl
    have hstrict : (standard.strictly.select {}
          ((oneComparison "CONTAINS").cut
            fun l => !Operator.isTag (Text.lower l.operator))).result =
        .error (.build (.unknownOperator "CONTAINS" Operator.sortedTags (some "a"))) := by
      rfl
    have hsame := h standard {} _ _ hcheck
    rw [hlenient, hstrict] at hsame
    cases hsame

end Compiler

end BoundSql
