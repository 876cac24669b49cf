import BoundSql.Proofs.Clause.Compiled
import BoundSql.Proofs.Sql.Draft

/-!
# Drafts of clauses

The clause of a filter can be drafted by recursion over the tree: a leaf that is kept is drafted
with its value in the place of the placeholder, a group with its children between parentheses unless
nothing is left of them. The outline of the filter is what the draft is when it is numbered.

* `Node.numbered_draft` — the draft and the outline;
* `Node.values_draft` — the values of the draft;
* `Compiled.Renders.draft` — a compiled clause is the draft of its nodes.
-/

namespace BoundSql

open Sql (Draft)

/-- A kept leaf with its value in place: the test of the leaf, with the value instead of the
placeholder. -/
def Leaf.draft (d : Dialect) (aliases : Aliases) (k : Leaf × Operator.Form) : Draft :=
  (Leaf.test d aliases 0 k).pieces.map fun
    | .verbatim s => .verbatim s
    | .parameter _ => .bound k.1.value

/-- A draft between parentheses. -/
def Sql.Draft.parenthesized (d : Draft) : Draft := .verbatim "( " :: (d ++ [.verbatim " )"])

/-- What is drafted, unless it is empty, between parentheses. -/
def Sql.Draft.grouped? : Draft → Option Draft
  | [] => none
  | p :: d => some (.parenthesized (p :: d))

/-- What is drafted of a sibling, behind the joiner unless it is the first. -/
def Sql.Draft.joined (first : Bool) (j : Option Joiner) (d : Draft) : Draft :=
  if first then d else .verbatim (Sql.between j) :: d

namespace Node

section Draft

variable (d : Dialect) (aliases : Aliases)

mutual

/-- The draft of a node, if anything of it is kept. -/
def draftOf : Node → Option Draft
  | leaf l => l.kept?.map (Leaf.draft d aliases)
  | group children _ => Sql.Draft.grouped? (draft true children)

/-- **The draft of siblings**, with every value in its place; the first that is kept does not show
its joiner. -/
def draft (first : Bool) : List Node → Draft
  | [] => []
  | n :: ns =>
    match draftOf n with
    | some own => Sql.Draft.joined first n.joiner own ++ draft false ns
    | none => draft first ns

end

theorem numbered_leaf (bound : Nat) (k : Leaf × Operator.Form) :
    Sql.Draft.numbered bound (Leaf.draft d aliases k) =
      (Leaf.test d aliases (bound + 1) k).pieces := by
  obtain ⟨l, form⟩ := k
  cases form <;> rfl

theorem values_leaf (k : Leaf × Operator.Form) :
    Sql.Draft.values (Leaf.draft d aliases k) = [k.1.value] := by
  obtain ⟨l, form⟩ := k
  cases form <;> rfl

/-! ### The draft and the outline -/

theorem draft_leaf_of_kept {l : Leaf} {f : Operator.Form} (h : l.form? = some f) (first : Bool)
    (ns : List Node) :
    draft d aliases first (leaf l :: ns) =
      Sql.Draft.joined first l.joiner (Leaf.draft d aliases (l, f)) ++
        draft d aliases false ns := by
  have hk : l.kept? = some (l, f) := by rw [Leaf.kept?, h]; rfl
  rw [draft, draftOf, hk]
  rfl

theorem draft_leaf_of_dropped {l : Leaf} (h : l.form? = none) (first : Bool) (ns : List Node) :
    draft d aliases first (leaf l :: ns) = draft d aliases first ns := by
  have hk : l.kept? = none := by rw [Leaf.kept?, h]; rfl
  rw [draft, draftOf, hk]
  rfl

theorem draft_group_of_nil {children : List Node} (h : draft d aliases true children = [])
    (first : Bool) (j : Option Joiner) (ns : List Node) :
    draft d aliases first (group children j :: ns) = draft d aliases first ns := by
  rw [draft, draftOf, h]
  rfl

theorem draft_group_of_ne_nil {children : List Node} (h : draft d aliases true children ≠ [])
    (first : Bool) (j : Option Joiner) (ns : List Node) :
    draft d aliases first (group children j :: ns) =
      Sql.Draft.joined first j (.parenthesized (draft d aliases true children)) ++
        draft d aliases false ns := by
  rw [draft, draftOf]
  cases hdraft : draft d aliases true children with
  | nil => exact absurd hdraft h
  | cons p rest => rfl

theorem numbered_joined (bound : Nat) (first : Bool) (j : Option Joiner) (own : Draft) :
    Sql.Draft.numbered bound (Sql.Draft.joined first j own) =
      (if first then [] else [.verbatim (Sql.between j)]) ++ Sql.Draft.numbered bound own := by
  cases first <;> rfl

theorem values_joined (first : Bool) (j : Option Joiner) (own : Draft) :
    Sql.Draft.values (Sql.Draft.joined first j own) = Sql.Draft.values own := by
  cases first <;> rfl

theorem values_parenthesized (own : Draft) :
    Sql.Draft.values (.parenthesized own) = Sql.Draft.values own := by
  simp [Sql.Draft.parenthesized, Sql.Draft.values_append]

/-- The parentheses take no numbers. -/
theorem numbered_parenthesized (bound : Nat) (own : Draft) :
    Sql.Draft.numbered bound (.parenthesized own) =
      .verbatim "( " :: (Sql.Draft.numbered bound own ++ [.verbatim " )"]) := by
  show .verbatim "( " :: Sql.Draft.numbered bound (own ++ [.verbatim " )"]) = _
  rw [Sql.Draft.numbered_append]
  rfl

/-- **The values of a draft** are those of the leaves that are kept. -/
theorem values_draft (first : Bool) (ns : List Node) :
    Sql.Draft.values (draft d aliases first ns) = values ns := by
  induction ns using forest_induction generalizing first with
  | nil => rfl
  | leaf l ns ih =>
    -- a leaf that is dropped has neither a text nor a value
    cases hf : l.form? with
    | none =>
      rw [draft_leaf_of_dropped d aliases hf, ih, values, values, kept_leaf_of_dropped hf]
    | some f =>
      rw [draft_leaf_of_kept d aliases hf, Sql.Draft.values_append, values_joined, values_leaf, ih,
        values, values, kept_leaf_of_kept hf]
      rfl
  | group children j ns ihInner ih =>
    have hinner := ihInner true
    have hvalues : values (group children j :: ns) = values children ++ values ns := by
      rw [values, kept_group_cons, List.map_append]
      rfl
    -- a group that is left empty is not drafted, and none of its leaves is kept
    by_cases hnil : draft d aliases true children = []
    · rw [hnil] at hinner
      rw [draft_group_of_nil d aliases hnil, ih, hvalues, ← hinner]
      rfl
    · rw [draft_group_of_ne_nil d aliases hnil, Sql.Draft.values_append, values_joined,
        values_parenthesized, ih, hvalues, hinner]

/-- **The draft and the outline.** Numbered behind so many parameters, the draft of siblings is
their outline. -/
theorem numbered_draft (bound : Nat) (first : Bool) (ns : List Node) :
    Sql.Draft.numbered bound (draft d aliases first ns) =
      Sql.pieces first (outline d aliases bound ns) := by
  induction ns using forest_induction generalizing bound first with
  | nil => rfl
  | leaf l ns ih =>
    cases hf : l.form? with
    | none =>
      rw [draft_leaf_of_dropped d aliases hf, ih, outline_leaf_of_dropped d aliases bound hf]
    | some f =>
      rw [draft_leaf_of_kept d aliases hf, Sql.Draft.numbered_append, numbered_joined,
        values_joined, numbered_leaf, values_leaf, ih, outline_leaf_of_kept d aliases bound hf,
        Sql.pieces_cons, List.append_assoc]
      rfl
  | group children j ns ihInner ih =>
    have hinner := ihInner bound true
    -- the children bind as many values as leaves of theirs are kept
    have hcount : (Sql.Draft.values (draft d aliases true children)).length =
        (kept children).length := by
      rw [values_draft, length_values]
    rw [outline_group_cons]
    -- nothing is drafted of the children exactly if nothing is outlined of them
    by_cases hnil : draft d aliases true children = []
    · have hempty : outline d aliases bound children = [] := by
        rw [hnil] at hinner
        refine (Sql.write_pieces_eq_empty d.style _).mp ?_
        rw [← hinner]
        rfl
      rw [draft_group_of_nil d aliases hnil, ih, hempty, ← hcount, hnil]
      rfl
    · cases houtline : outline d aliases bound children with
      | nil =>
        rw [houtline] at hinner
        exact absurd (Sql.Draft.eq_nil_of_numbered hinner) hnil
      | cons t ts =>
        have hgroup : Sql.Draft.numbered bound (.parenthesized (draft d aliases true children)) =
            (Sql.Term.group j (t :: ts)).pieces := by
          rw [numbered_parenthesized, hinner, houtline]
          rfl
        -- what is behind the group is numbered on from its children
        rw [draft_group_of_ne_nil d aliases hnil, Sql.Draft.numbered_append, numbered_joined,
          values_joined, values_parenthesized, hgroup, hcount, ih]
        exact List.append_assoc _ _ _

/-- **A clause is read as drafted**: it shows the placeholders of its values and no others. -/
theorem reads_draft {d : Dialect} (hd : Sql.IsOperator d.patternOperator) (aliases : Aliases)
    (first : Bool) (ns : List Node) :
    Sql.Draft.Reads d.style Sql.Clear (draft d aliases first ns) := by
  intro bound rest hrest
  rw [Sql.Draft.text, numbered_draft,
    Sql.scan_pieces d.style first (outline_legible hd aliases bound ns) hrest,
    Sql.parameters_append]
  refine congrArg (· ++ _) ?_
  -- the placeholders of the outline are numbered from the first free one
  have hnumbers : (Sql.tests (outline d aliases bound ns)).map (fun t => some t.number) =
      (List.range' (bound + 1) (kept ns).length).map some := by
    rw [← numbers_outline, List.map_map]
    rfl
  rw [Sql.Draft.parameters_shown, Sql.parameters_lexemesOf, hnumbers, List.map_map, values_draft,
    length_values]
  rfl

end Draft

end Node

/-- The draft of the clause of a filter, with the keyword in front of it unless it is empty. -/
def Sql.Draft.filtered : Draft → Draft
  | [] => []
  | p :: d => .verbatim "WHERE " :: p :: d

/-- **A compiled clause** is the draft of its nodes, written down behind the parameters bound
before. -/
theorem Compiled.Renders.draft {r : Compiled} {c : Compiler} {bound : Nat} {ns : List Node}
    (h : r.Renders c bound true ns) :
    r.whereClause = (Sql.Draft.filtered (Node.draft c.dialect c.aliases true ns)).text
        c.dialect.style bound ∧
      r.values =
        Sql.Draft.values (Sql.Draft.filtered (Node.draft c.dialect c.aliases true ns)) := by
  have hnumbered := Node.numbered_draft c.dialect c.aliases bound true ns
  have hvalues := Node.values_draft c.dialect c.aliases true ns
  have hempty := Sql.write_pieces_eq_empty c.dialect.style
    (Node.outline c.dialect c.aliases bound ns)
  rw [h.whereClause, h.values]
  cases hdraft : Node.draft c.dialect c.aliases true ns with
  | nil =>
    rw [hdraft] at hnumbered hvalues
    rw [← hnumbered, ← hvalues]
    exact ⟨rfl, rfl⟩
  | cons p rest =>
    rw [hdraft] at hnumbered hvalues
    -- the text is not empty, as the draft would be empty too
    have hne : Sql.write c.dialect.style (Sql.pieces true
        (Node.outline c.dialect c.aliases bound ns)) ≠ "" := by
      intro hnil
      rw [hempty.mp hnil] at hnumbered
      exact absurd (Sql.Draft.eq_nil_of_numbered hnumbered) (List.cons_ne_nil p rest)
    refine ⟨?_, hvalues.symm⟩
    rw [Compiler.withKeyword, if_pos (by simpa using hne), ← hnumbered]
    rfl

end BoundSql
