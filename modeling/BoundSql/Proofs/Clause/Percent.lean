import BoundSql.Proofs.Clause.Draft
import BoundSql.Proofs.Ident
import BoundSql.Proofs.Sql.Percent

/-!
# Clauses as percent templates

A clause holds texts that a caller has a say in: the names of its columns, the tables in front of
them, and the operator for patterns. Column names are made of letters, digits and underscores, and
the wildcards around a pattern are doubled; tables and the operator are written as they are.

* `Sql.Percent.writes_column` — a column;
* `Node.carries_draft` — the draft of a filter;
* `Compiled.Renders.count?_whereClause` — a clause is a template with one placeholder for each of
  its values exactly if the tables it names, and the operator for the patterns in it, have their
  percent signs doubled.
-/

namespace BoundSql

open Node
open Sql.Percent

/-! ### Columns and operators -/

/-- A column name has no percent signs. -/
theorem Ident.percent_not_mem_snakeCase (name : String) : '%' ∉ (snakeCase name).toList := by
  intro h
  rcases mem_snakeCase h with h | h
  · cases h
  · cases h

/-- **A column** has its percent signs doubled if its table has. -/
theorem Sql.Percent.writes_column {c : Column} (hname : '%' ∉ c.name.toList) :
    Writes (∀ q ∈ c.qualifier, Doubled q) c.sql := by
  have hcolumn := (writes_quote c.name).congr
    (iff_true_intro ((writes_of_not_mem hname).doubled_iff.mpr trivial))
  unfold Column.sql
  cases hq : c.qualifier with
  | none => exact hcolumn.congr (by simp)
  | some q =>
    have hdot : Writes True "." := writes_of_not_mem (by decide)
    exact (((writes_quote q).append hdot).append hcolumn).congr (by simp)

/-- The sign of an operator has no percent signs. -/
theorem Operator.percent_not_mem_sign {tag sign : String} (h : formOf? tag = some (.symbol sign)) :
    '%' ∉ sign.toList := by
  obtain ⟨o, ho⟩ := exists_symbol_of_formOf? h
  cases o <;> cases ho <;> decide

/-! ### Clauses -/

namespace Leaf

/-- What the comparison of a leaf names has its percent signs doubled: the table of its column, and
the operator if it matches a pattern. -/
def NamesDoubled (d : Dialect) (aliases : Aliases) (k : Leaf × Operator.Form) : Prop :=
  (∀ q ∈ (k.1.column aliases).qualifier, Doubled q) ∧
    (k.2 = .pattern → Doubled d.patternOperator)

/-- **The comparison of a leaf**, its operator being known. -/
theorem carries_draft {d : Dialect} (hd : d.style = .percent) (aliases : Aliases)
    {k : Leaf × Operator.Form} (hk : k.1.form? = some k.2) :
    Sql.Draft.Carries (NamesDoubled d aliases k) (Leaf.draft d aliases k) := by
  obtain ⟨l, form⟩ := k
  have hcolumn : Writes (∀ q ∈ (l.column aliases).qualifier, Doubled q) (l.column aliases).sql :=
    writes_column (Ident.percent_not_mem_snakeCase _)
  have hblank : Writes True " " := writes_of_not_mem (by decide)
  -- a caller has a say in the table of the column and in the operator for patterns only
  cases form with
  | symbol sign =>
    have hsign : Writes True sign := writes_of_not_mem (Operator.percent_not_mem_sign hk)
    have htext := ((hcolumn.append hblank).append hsign).append hblank
    have hdraft : Leaf.draft d aliases (l, .symbol sign) =
        [.verbatim ((l.column aliases).sql ++ " " ++ sign ++ " "), .bound l.value] := by
      simp [Leaf.draft, Leaf.test, Sql.Test.pieces, Sql.Phrase.ofForm]
    rw [hdraft]
    exact ((Sql.Draft.carries_bound l.value).verbatim_cons htext).congr (by simp [NamesDoubled])
  | membership negate =>
    have hlead : Writes True (" " ++ (if negate then "!=" else "=") ++ " ANY(") := by
      cases negate with
      | true => exact writes_of_not_mem (by decide)
      | false => exact writes_of_not_mem (by decide)
    have htext := (hlead.append hcolumn).append (writes_of_not_mem (s := ")") (by decide))
    have hdraft : Leaf.draft d aliases (l, .membership negate) =
        [.bound l.value, .verbatim (" " ++ (if negate then "!=" else "=") ++ " ANY(" ++
          (l.column aliases).sql ++ ")")] := by
      simp [Leaf.draft, Leaf.test, Sql.Test.pieces, Sql.Phrase.ofForm]
    rw [hdraft]
    exact ((Sql.Draft.carries_bound l.value).append (Sql.Draft.carries_verbatim htext)).congr
      (by simp [NamesDoubled])
  | pattern =>
    -- the wildcards are doubled for the driver, the operator between them and the column is not
    have hwildcard : Writes True "'%%' || " := writes_of_count? (by decide) (by decide)
    have hbehind : Writes True " || '%%'" := writes_of_count? (by decide) (by decide)
    have htext :=
      ((hcolumn.append hblank).append (writes_word d.patternOperator)).append hwildcard
    have hdraft : Leaf.draft d aliases (l, .pattern) =
        [.verbatim ((l.column aliases).sql ++ " " ++ (d.patternOperator ++ " ") ++ "'%%' || "),
          .bound l.value, .verbatim " || '%%'"] := by
      have hquote : Text.quoteWith '\'' "%%" = "'%%'" := by rfl
      simp [Leaf.draft, Leaf.test, Sql.Test.pieces, Sql.Phrase.ofForm, hd,
        PlaceholderStyle.percentSign, hquote, String.append_assoc]
    have hvalue := (Sql.Draft.carries_bound l.value).append (Sql.Draft.carries_verbatim hbehind)
    rw [hdraft]
    exact (hvalue.verbatim_cons htext).congr (by simp [NamesDoubled])

end Leaf

namespace Node

/-- **The draft of a filter** has its percent signs doubled if the names in its comparisons have. -/
theorem carries_draft {d : Dialect} (hd : d.style = .percent) (aliases : Aliases) (first : Bool)
    (ns : List Node) :
    Sql.Draft.Carries (∀ k ∈ kept ns, Leaf.NamesDoubled d aliases k)
      (draft d aliases first ns) := by
  have hjoined : ∀ {p : Prop} {own : Sql.Draft} (first : Bool) (j : Option Joiner),
      own.Carries p → (Sql.Draft.joined first j own).Carries p := by
    intro p own first j hown
    cases first with
    | true => exact hown
    | false =>
      have hbetween : '%' ∉ (Sql.between j).toList := by
        rcases j with _ | _ | _ <;> decide
      exact hown.text_cons hbetween
  induction ns using forest_induction generalizing first with
  | nil => exact Sql.Draft.carries_nil.congr (by simp [kept, leavesOf])
  | leaf l ns ih =>
    cases hform : l.form? with
    | none =>
      rw [draft_leaf_of_dropped d aliases hform, kept_leaf_of_dropped hform]
      exact ih first
    | some f =>
      rw [draft_leaf_of_kept d aliases hform, kept_leaf_of_kept hform]
      have hleaf := Leaf.carries_draft hd aliases (k := (l, f)) hform
      exact ((hjoined first l.joiner hleaf).append (ih false)).congr (by simp)
  | group children j ns ihInner ih =>
    have hinner := ihInner true
    rw [kept_group_cons]
    by_cases hnil : draft d aliases true children = []
    · -- nothing of the children is drafted, as none of their leaves is kept
      have hkept : kept children = [] := by
        have hvalues := values_draft d aliases true children
        rw [hnil] at hvalues
        exact List.map_eq_nil_iff.mp hvalues.symm
      rw [draft_group_of_nil d aliases hnil, hkept]
      exact ih first
    · have hgroup : (Sql.Draft.parenthesized (draft d aliases true children)).Carries
          (∀ k ∈ kept children, Leaf.NamesDoubled d aliases k) :=
        (hinner.append_text (by decide)).text_cons (by decide)
      rw [draft_group_of_ne_nil d aliases hnil]
      exact ((hjoined first j hgroup).append (ih false)).congr List.forall_mem_append.symm

end Node

/-- The clause of a filter, with the keyword in front of it or without. -/
theorem Sql.Draft.Carries.filtered {p : Prop} {d : Sql.Draft} (h : d.Carries p) :
    (Sql.Draft.filtered d).Carries p := by
  cases d with
  | nil => exact h
  | cons part d =>
    exact h.text_cons (by decide)

/-- The names that the clause of nodes writes as they are: the tables of columns, and the operator
for patterns if there is one. -/
def Compiler.clauseNames (c : Compiler) (ns : List Node) : List String :=
  ((kept ns).filterMap fun k => (k.1.column c.aliases).qualifier) ++
    if (kept ns).any fun k => k.2 = .pattern then [c.dialect.patternOperator] else []

theorem Compiler.forall_clauseNames (c : Compiler) (ns : List Node) :
    (∀ k ∈ kept ns, Leaf.NamesDoubled c.dialect c.aliases k) ↔
      ∀ n ∈ c.clauseNames ns, Doubled n := by
  -- the operator is named once, however many patterns there are
  have hoperator : (∀ k ∈ kept ns, k.2 = .pattern → Doubled c.dialect.patternOperator) ↔
      ∀ n ∈ (if (kept ns).any fun k => k.2 = .pattern then [c.dialect.patternOperator] else []),
        Doubled n := by
    by_cases hpattern : ∃ k ∈ kept ns, k.2 = .pattern
    · rw [if_pos (by simpa using hpattern), List.forall_mem_singleton]
      obtain ⟨k, hk, hform⟩ := hpattern
      exact ⟨fun h => h k hk hform, fun h _ _ _ => h⟩
    · rw [if_neg (by simpa using hpattern)]
      exact ⟨fun _ => List.forall_mem_nil _, fun _ k hk hform => absurd ⟨k, hk, hform⟩ hpattern⟩
  rw [clauseNames, List.forall_mem_append, List.forall_mem_filterMap, ← hoperator]
  constructor
  · intro h
    exact ⟨fun k hk => (h k hk).1, fun k hk => (h k hk).2⟩
  · rintro ⟨htables, hoperators⟩ k hk
    exact ⟨htables k hk, hoperators k hk⟩

namespace Compiled.Renders

variable {r : Compiled} {c : Compiler} {bound : Nat} {keyword : Bool} {ns : List Node}

/-- **A compiled clause is a template** with one placeholder for each of its values exactly if the
names that it writes as they are have their percent signs doubled. -/
theorem count?_whereClause (h : r.Renders c bound keyword ns) (hd : c.dialect.style = .percent) :
    count? r.whereClause.toList = some r.values.length ↔ ∀ n ∈ c.clauseNames ns, Doubled n := by
  have hcarries := Node.carries_draft hd c.aliases true ns
  rw [← Compiler.forall_clauseNames]
  -- the keyword holds no percent sign, so it does not matter whether it is written
  cases keyword with
  | true =>
    rw [h.draft.1, h.draft.2, hd]
    exact hcarries.filtered.count?_text bound
  | false =>
    have htext : r.whereClause =
        (Node.draft c.dialect c.aliases true ns).text c.dialect.style bound := by
      rw [Sql.Draft.text, Node.numbered_draft]
      exact h.whereClause
    rw [htext, h.values, ← Node.values_draft c.dialect c.aliases true ns, hd]
    exact hcarries.count?_text bound

end Compiled.Renders

end BoundSql
