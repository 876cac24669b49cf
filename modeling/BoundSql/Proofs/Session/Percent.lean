import BoundSql.Proofs.Clause.Percent
import BoundSql.Proofs.Session.Aligned

/-!
# Statements as percent templates

Drivers with percent placeholders read a statement as a template, so a percent sign that is to stay
one has to be doubled. That is done for the wildcards of patterns, but not for names: a table, an
alias or the table of a path is quoted for SQL and otherwise written as it is.

The argument follows the draft of a statement. Its texts are keywords without percent signs, columns
in snake case, which have none either, and names between quotes; the placeholders of its values
stand between these. No text ends in a percent sign, so a driver reads them one by one, and finds
the placeholders of the values and nothing else exactly if no name has a percent sign alone. Which
names a call writes is collected beside the parts it is drafted in: its table, which a projection
writes in front of each column too, the tables of the columns in its clause and in its order, and
the operator for patterns.

* `Sql.Draft.carries_sentence` — the parts of a statement together;
* `Session.namesOf`, `Session.Drafts.carries` — what the parts of a call name;
* `Session.template_iff` — when a clause, an order or a whole statement is a template with one
  placeholder for each of its values;
* `Session.not_template_of_discounted` — a table whose name makes a driver stop.
-/

namespace BoundSql

open Sql (Draft)
open Sql.Percent

/-! ### The parts of statements -/

/-- The columns of a stored row have no percent signs. -/
theorem StoredAs.percent_not_mem {arrays : List String} {row : Value} {stored : StoredRow}
    (h : StoredAs arrays row stored) : ∀ c ∈ stored.map (·.1), '%' ∉ c.toList := by
  obtain ⟨⟨es, -, hstores⟩, -⟩ := h
  rw [map_fst_of_stores hstores]
  intro c hc
  obtain ⟨e, -, he⟩ := List.mem_filterMap.mp hc
  obtain ⟨name, -, rfl⟩ := Option.map_eq_some_iff.mp he
  exact Ident.percent_not_mem_snakeCase name

namespace Sql.Draft

/-- A name without percent signs, quoted. -/
theorem writes_quote_of_not_mem {name : String} (h : '%' ∉ name.toList) :
    Writes True (Ident.quote name) :=
  (writes_quote name).congr (iff_true_intro ((writes_of_not_mem h).doubled_iff.mpr trivial))

theorem carries_lead {keyword : String} (hkeyword : '%' ∉ keyword.toList) (table : String) :
    Carries (Doubled table) (lead keyword table) :=
  (carries_verbatim (writes_quote table)).text_cons hkeyword

theorem writes_comma : Writes True "," := writes_of_not_mem (by decide)

theorem carries_names {columns : List String} (h : ∀ c ∈ columns, '%' ∉ c.toList) :
    Carries True (names columns) :=
  (carries_divided writes_comma fun c hc =>
    carries_verbatim (writes_quote_of_not_mem (h c hc))).congr (by simp)

/-- The columns of a table name it once for each. -/
theorem carries_projected (table : String) (fields : List String) :
    Carries (∀ _f ∈ fields, Doubled table) (projected table fields) := by
  have hcolumn : ∀ f ∈ fields, Carries (Doubled table) [.verbatim (Ident.quote table),
      .verbatim ".", .verbatim (Ident.quote (Ident.snakeCase f))] := by
    intro f _
    have hfield := carries_verbatim (writes_quote_of_not_mem (Ident.percent_not_mem_snakeCase f))
    have hdotted := hfield.text_cons (s := ".") (by decide)
    exact (hdotted.verbatim_cons (writes_quote table)).congr (iff_of_eq (and_true _))
  exact (carries_divided writes_comma hcolumn).text_cons (by decide)

theorem carries_page (limit offset : Value) : Carries True (page limit offset) := by
  have hoffset := (carries_bound offset).text_cons (s := " OFFSET ") (by decide)
  have hcounts := ((carries_bound limit).append hoffset).text_cons (s := "LIMIT ") (by decide)
  exact hcounts.congr (iff_of_eq (and_true _))

theorem carries_insertHead (table : String) {columns : List String}
    (h : ∀ c ∈ columns, '%' ∉ c.toList) : Carries (Doubled table) (insertHead table columns) := by
  have hinto : '%' ∉ "INSERT INTO ".toList := by decide
  have hcolumns := ((carries_names h).append_text (s := ")") (by decide)).text_cons
    (s := " (") (by decide)
  exact ((carries_lead hinto table).append hcolumns).congr (iff_of_eq (and_true _))

theorem carries_tuples (rows : List (List Value)) : Carries True (tuples rows) := by
  have htuple : ∀ vs ∈ rows, Carries True (tuple vs) := by
    intro vs _
    have hvalues := carries_divided writes_comma fun v (_ : v ∈ vs) => carries_bound v
    have hclosed := (hvalues.append_text (s := ")") (by decide)).text_cons (s := "(") (by decide)
    exact hclosed.congr (by simp)
  have hrows := (carries_divided writes_comma htuple).text_cons (s := "VALUES ") (by decide)
  exact hrows.congr (by simp)

theorem carries_returned (returning : Bool) : Carries True (returned returning) := by
  cases returning with
  | false => exact carries_nil
  | true => exact carries_text (by decide)

theorem carries_assigned {changes : StoredRow} (h : ∀ c ∈ changes.map (·.1), '%' ∉ c.toList) :
    Carries True (assigned changes) := by
  have hchange : ∀ change ∈ changes, Carries True
      [.verbatim (Ident.quote change.1), .verbatim " = ", .bound change.2] := by
    intro change hmem
    have hcolumn := writes_quote_of_not_mem (h _ (List.mem_map_of_mem hmem))
    have hvalue := (carries_bound change.2).text_cons (s := " = ") (by decide)
    exact (hvalue.verbatim_cons hcolumn).congr (iff_of_eq (and_true _))
  have hchanges := (carries_divided writes_comma hchange).text_cons (s := "SET ") (by decide)
  exact hchanges.congr (by simp)

theorem doubled_iff_of_carries {ps : List Prop} {ds : List Draft}
    (h : List.Forall₂ Carries ps ds) :
    (∀ d ∈ ds, ∀ s, .verbatim s ∈ d → Doubled s) ↔ ps.foldr And True := by
  induction h with
  | nil => simp
  | cons hp _ ih =>
    rw [List.forall_mem_cons, List.foldr_cons]
    exact and_congr hp.doubled_iff ih

/-- **The parts of a statement together.** -/
theorem carries_sentence {ps : List Prop} {ds : List Draft} (h : List.Forall₂ Carries ps ds) :
    Carries (ps.foldr And True) (sentence ds) := by
  have hblank : Writes True " " := writes_of_not_mem (by decide)
  -- whether a part is drafted or left out as empty, it asks for the same
  have hkept : ∀ d ∈ ds.filter fun d => !d.isEmpty,
      Carries (∀ s, .verbatim s ∈ d → Doubled s) (id d) := by
    intro d hd
    obtain ⟨p, hp⟩ := exists_of_mem_right h (List.mem_filter.mp hd).1
    exact ⟨hp.ends, Iff.rfl⟩
  have hdivided := carries_divided hblank hkept
  rw [List.map_id] at hdivided
  have hall : (∀ d ∈ ds.filter fun d => !d.isEmpty, ∀ s, .verbatim s ∈ d → Doubled s) ↔
      ∀ d ∈ ds, ∀ s, .verbatim s ∈ d → Doubled s := by
    constructor
    · intro hall d hd s hs
      have hne : d.isEmpty = false := List.isEmpty_eq_false_iff_exists_mem.mpr ⟨_, hs⟩
      exact hall d (List.mem_filter.mpr ⟨hd, by rw [hne]; rfl⟩) s hs
    · exact fun hall d hd => hall d (List.mem_filter.mp hd).1
  exact hdivided.congr (hall.trans (doubled_iff_of_carries h))

end Sql.Draft

/-! ### What calls name -/

/-- The names that an order writes as they are: the table of its column. -/
def Compiler.orderNames (c : Compiler) (sort : Option SortKey) : List String :=
  (sort.bind fun k => (Column.resolve k.key c.aliases).qualifier).toList

theorem Sql.Draft.carries_ordered (c : Compiler) (sort : Option SortKey) :
    Carries (∀ n ∈ c.orderNames sort, Doubled n) (ordered c.aliases sort) := by
  cases sort with
  | none => exact carries_nil.congr (by simp [Compiler.orderNames])
  | some k =>
    have hcolumn : Writes (∀ q ∈ (Column.resolve k.key c.aliases).qualifier, Doubled q)
        (Column.resolve k.key c.aliases).sql :=
      writes_column (Ident.percent_not_mem_snakeCase _)
    -- of what the order writes only the table can hold a percent sign
    have hdirection : '%' ∉ k.direction.keyword.toList := by
      cases k.direction <;> decide
    have hbehind := (carries_text hdirection).text_cons (s := " ") (by decide)
    have horder := (hbehind.verbatim_cons hcolumn).text_cons (s := "ORDER BY ") (by decide)
    exact horder.congr (by simp [Compiler.orderNames])

/-- **An order is a template** without placeholders exactly if the name that it writes as it is has
its percent signs doubled. -/
theorem Compiler.count?_sortClause (c : Compiler) (sort : Option SortKey) :
    count? (c.sortClause sort).toList = some 0 ↔ ∀ n ∈ c.orderNames sort, Doubled n := by
  rw [← Sql.Draft.text_ordered 0 c sort]
  have hcount := (Sql.Draft.carries_ordered c sort).count?_text 0
  rwa [Sql.Draft.values_ordered] at hcount

namespace Session

variable {ε : Type}

/-- The nodes that the clause of a call is compiled from. -/
def nodesOf (s : Session) : Call ε → List Node
  | .getAll _ v _ | .get _ _ v _ | .update _ _ v _ | .delete _ v _ =>
    (Node.ofFilters s.compiler.strict v).result.toOption.getD []
  | .search _ data fields =>
    ((Selection.read s.compiler.strict data).result.bind
      (·.effectiveNodes fields)).toOption.getD []
  | _ => []

/-- The order of a call. -/
def sortOf (s : Session) : Call ε → Option SortKey
  | .search _ data _ => (Selection.read s.compiler.strict data).result.toOption.bind (·.sort)
  | _ => none

/-- The names that the statement of a call writes as they are: its table, and what its clause and
its order name. -/
def namesOf (s : Session) (call : Call ε) : List String :=
  call.table?.toList ++ s.compiler.clauseNames (s.nodesOf call) ++
    s.compiler.orderNames (s.sortOf call)

namespace Drafts

open Sql.Draft

variable {s : Session} {call : Call ε} {ds : List Draft} {params : List Value}

/-- **What the draft of a call names** is to have its percent signs doubled, and nothing else in
it. -/
theorem carries (hd : s.dialect.style = .percent) (h : s.Drafts call ds params) :
    (Sql.Draft.sentence ds).Carries (∀ n ∈ s.namesOf call, Doubled n) := by
  have hclause : ∀ ns : List Node,
      (s.clauseDraft ns).Carries (∀ n ∈ s.compiler.clauseNames ns, Doubled n) := by
    intro ns
    exact (Node.carries_draft hd s.compiler.aliases true ns).filtered.congr
      (s.compiler.forall_clauseNames ns)
  have hstar : Carries True [.verbatim "SELECT *"] := carries_text (by decide)
  have hfrom : ∀ table : String, (lead "FROM " table).Carries (Doubled table) :=
    carries_lead (by decide)
  have hnodes : s.compiler.clauseNames [] = [] := rfl
  have horder : s.compiler.orderNames none = [] := rfl
  -- for each kind of call, its parts one by one against the names collected for it
  cases h with
  | getAll table e hns =>
    refine (carries_sentence (.cons hstar (.cons (hfrom table) (.cons (hclause _) .nil)))).congr ?_
    simp [namesOf, nodesOf, sortOf, Call.table?, hns, Except.toOption, horder]
  | get table fields e hns =>
    -- the projection names the table too, once for each field
    have honce : ∀ q : Prop, ((∀ _f ∈ fields, Doubled table) ∧ Doubled table ∧ q) ↔
        (Doubled table ∧ q) := by
      intro q
      exact ⟨And.right, fun h => ⟨fun _ _ => h.1, h⟩⟩
    refine (carries_sentence (.cons (carries_projected table fields)
      (.cons (hfrom table) (.cons (hclause _) .nil)))).congr ((honce _).trans ?_)
    simp [namesOf, nodesOf, sortOf, Call.table?, hns, Except.toOption, horder]
  | search table fields hsel hns =>
    refine (carries_sentence (.cons hstar (.cons (hfrom table) (.cons (hclause _)
      (.cons (carries_ordered s.compiler _) (.cons (carries_page _ _) .nil)))))).congr ?_
    simp [namesOf, nodesOf, sortOf, Call.table?, hsel, hns, Except.toOption, Except.bind, or_imp,
      forall_and]
  | insert table returning hrow =>
    refine (carries_sentence (.cons (carries_insertHead table hrow.percent_not_mem)
      (.cons (carries_tuples _) (.cons (carries_returned returning) .nil)))).congr ?_
    simp [namesOf, nodesOf, sortOf, Call.table?, hnodes, horder]
  | @bulkInsert table _ returning _ stored columns _ _ hstored _ hcolumns _ =>
    -- every column of the plan is one of a row
    have hnames : ∀ c ∈ columns, '%' ∉ c.toList := by
      intro c hc
      obtain ⟨row, hrow, hmem⟩ := (hcolumns c).mp hc
      obtain ⟨item, hitem⟩ := exists_of_mem_right hstored hrow
      exact hitem.percent_not_mem c hmem
    refine (carries_sentence (.cons (carries_insertHead table hnames)
      (.cons (carries_tuples _) (.cons (carries_returned returning) .nil)))).congr ?_
    simp [namesOf, nodesOf, sortOf, Call.table?, hnodes, horder]
  | update table allowAll hchanges hns =>
    refine (carries_sentence (.cons (carries_lead (by decide) table)
      (.cons (carries_assigned hchanges.percent_not_mem) (.cons (hclause _) .nil)))).congr ?_
    simp [namesOf, nodesOf, sortOf, Call.table?, hns, Except.toOption, horder]
  | delete table allowAll hns =>
    refine (carries_sentence (.cons (carries_lead (by decide) table)
      (.cons (hclause _) .nil))).congr ?_
    simp [namesOf, nodesOf, sortOf, Call.table?, hns, Except.toOption, horder]

end Drafts

/-- **A statement is a template** with one placeholder for each of its parameters exactly if the
names that its call writes as they are have their percent signs doubled. -/
theorem count?_of_executed {name style : Value} {host database : Option String} {strict : Bool}
    {aliases : Aliases} {arrays : List String} {s : Session}
    (hs : (connect name style host database strict aliases arrays).result = .ok s)
    (hd : s.dialect.style = .percent) {call : Call ε} (hcall : call.table?.isSome)
    {replies : List Reply} {stmt : Statement} (h : .executed stmt ∈ (s.run call replies).events) :
    count? stmt.sql.toList = some stmt.parameters.length ↔ ∀ n ∈ s.namesOf call, Doubled n := by
  obtain ⟨e, hsend⟩ := send_of_executed h
  obtain ⟨ds, params, hdrafts, rfl⟩ := exists_draft hcall hsend
  have haligned := hdrafts.aligned (isOperator_of_connect hs)
  rw [haligned.sql, ← haligned.values, hd]
  exact (hdrafts.carries hd).count?_text 0

end Session

/-! ### Templates -/

/-- The clauses compiled from nodes and an order are templates, one placeholder for each of their
values, exactly if the names written as they are have their percent signs doubled. -/
structure Compiled.Templates (r : Compiled) (c : Compiler) (ns : List Node)
    (sort : Option SortKey) : Prop where
  whereClause : count? r.whereClause.toList = some r.values.length ↔
    ∀ n ∈ c.clauseNames ns, Doubled n
  sortClause : count? r.sortClause.toList = some 0 ↔ ∀ n ∈ c.orderNames sort, Doubled n

/-- What a selection is compiled to. -/
theorem Compiler.templates_of_select {c : Compiler} {k : Compilation} {sel : Selection}
    {r : Compiled} (hd : c.dialect.style = .percent) (h : (c.select k sel).result = .ok r) :
    ∃ ns, sel.effectiveNodes k.textFields = .ok ns ∧ r.Templates c ns sel.sort := by
  obtain ⟨bound, ns, -, hns, hrenders⟩ := select_renders h
  exact ⟨ns, hns, hrenders.count?_whereClause hd,
    sortClause_of_select h ▸ c.count?_sortClause sel.sort⟩

/-- **Templates.** With percent placeholders, what is compiled from a selection, from raw data or
from a filter, and every statement on a table that is executed, is a template with one placeholder
for each value bound, exactly if the names it writes as they are have their percent signs
doubled: the table of the statement, the tables of its columns, and the operator for its
patterns. -/
theorem Session.template_iff {ε : Type} :
    (∀ (c : Compiler) (k : Compilation) (sel : Selection) (r : Compiled),
      c.dialect.style = .percent → (c.select k sel).result = .ok r →
      ∃ ns, sel.effectiveNodes k.textFields = .ok ns ∧ r.Templates c ns sel.sort) ∧
    (∀ (c : Compiler) (k : Compilation) (v : Value) (r : Compiled),
      c.dialect.style = .percent → (c.selectRaw k v).result = .ok r →
      ∃ sel ns, (Selection.read c.strict v).result = .ok sel ∧
        sel.effectiveNodes k.textFields = .ok ns ∧ r.Templates c ns sel.sort) ∧
    (∀ (c : Compiler) (offset : Int) (v : Value) (r : Compiled),
      c.dialect.style = .percent → (c.filter offset v).result = .ok r →
      ∃ ns, (Node.ofFilters c.strict v).result = .ok ns ∧ r.Templates c ns none) ∧
    (∀ (name style : Value) (host database : Option String) (strict : Bool) (aliases : Aliases)
      (arrays : List String) (s : Session) (call : Call ε) (replies : List Reply)
      (stmt : Statement),
      (connect name style host database strict aliases arrays).result = .ok s →
      s.dialect.style = .percent → call.table?.isSome →
      .executed stmt ∈ (s.run call replies).events →
      (count? stmt.sql.toList = some stmt.parameters.length ↔
        ∀ n ∈ s.namesOf call, Doubled n)) := by
  refine ⟨?_, ?_, ?_, ?_⟩
  · intro c k sel r hd h
    exact Compiler.templates_of_select hd h
  · -- raw data and filters are compiled as the selection that is read from them
    intro c k v r hd h
    obtain ⟨sel, hsel, hselect⟩ := c.select_of_selectRaw h
    obtain ⟨ns, hns, htemplates⟩ := Compiler.templates_of_select hd hselect
    exact ⟨sel, ns, hsel, hns, htemplates⟩
  · intro c offset v r hd h
    obtain ⟨ns, hns, hselect⟩ := Report.result_bind_eq_ok.mp h
    obtain ⟨_, heq, htemplates⟩ := Compiler.templates_of_select hd hselect
    cases heq
    exact ⟨ns, hns, htemplates⟩
  · intro name style host database strict aliases arrays s call replies stmt hs hd hcall h
    exact count?_of_executed hs hd hcall h

namespace Session

/-- A session for a driver with percent placeholders, and an alias with its percent sign
doubled. -/
def salesSession : Session :=
  ⟨{ dialect := { Dialect.postgres with style := .percent }, aliases := [("p", "pets%%")] }, [],
    none⟩

theorem connect_salesSession :
    (connect (.text "postgresql") (.text "pyformat") none none false [("p", "pets%%")] []).result =
      .ok salesSession := by
  rfl

/-- Pets with a text in their names, in order of their owners. -/
def orderedPets : Value :=
  .map [
    (.text "filters", .list [
      .map [(.text "field", .text "p.name"), (.text "operator", .text "contains"),
        (.text "value", .text "cat")]]),
    (.text "sort", .map [(.text "key", .text "p.ownerId"), (.text "order", .text "ASC")])]

/-- The clause of these pets. -/
def namedClause : String := "WHERE \"pets%%\".\"name\" ILIKE '%%' || %s || '%%'"

/-- Their order. -/
def ownerOrder : String := "ORDER BY \"pets%%\".\"owner_id\" ASC"

/-- The search for them in a table with a percent sign in its name, doubled. -/
def salesSearch : Statement :=
  ⟨"SELECT * FROM \"50%% off\" " ++ namedClause ++ " " ++ ownerOrder ++ " LIMIT %s OFFSET %s",
    [.text "cat", .int 1000, .int 0]⟩

/-- The pets of an owner. -/
def ownedPets : Value := .map [(.text "p.ownerId", .int 7)]

/-- Their clause. -/
def ownedClause : String := "WHERE \"pets%%\".\"owner_id\" = %s"

/-- A table, an alias and a pattern, all with their percent signs doubled. -/
theorem template_iff_of_sales :
    (salesSession.compiler.selectRaw {} orderedPets).result =
      .ok ⟨.int 1000, .int 0, ownerOrder, namedClause, [.text "cat"]⟩ ∧
    (salesSession.compiler.filter 0 ownedPets).result =
      .ok ⟨.int 1000, .int 0, "", ownedClause, [.int 7]⟩ ∧
    (salesSession.run (.search (ε := Unit) "50%% off" orderedPets []) []).events =
      [.entered, .executed salesSearch, .committed] ∧
    count? namedClause.toList = some 1 ∧ count? ownerOrder.toList = some 0 ∧
    count? ownedClause.toList = some 1 ∧ count? salesSearch.sql.toList = some 3 := by
  -- four names are written as they are, and each has its percent sign doubled
  have hnames : ∀ n ∈ ["50%% off", "pets%%", "ILIKE", "pets%%"], Doubled n := by
    simp only [List.forall_mem_cons, doubled_iff_count?]
    decide
  have hclause : ["pets%%", "ILIKE"] ⊆ ["50%% off", "pets%%", "ILIKE", "pets%%"] := by
    simp
  have halias : ∀ n ∈ ["pets%%"], Doubled n :=
    List.forall_mem_singleton.mpr (hnames _ (by decide))
  have hraw : (salesSession.compiler.selectRaw {} orderedPets).result =
      .ok ⟨.int 1000, .int 0, ownerOrder, namedClause, [.text "cat"]⟩ := by
    rfl
  have hfilter : (salesSession.compiler.filter 0 ownedPets).result =
      .ok ⟨.int 1000, .int 0, "", ownedClause, [.int 7]⟩ := by
    rfl
  have hevents : (salesSession.run (.search (ε := Unit) "50%% off" orderedPets []) []).events =
      [.entered, .executed salesSearch, .committed] := by
    rfl
  have hexecuted : .executed salesSearch ∈
      (salesSession.run (.search (ε := Unit) "50%% off" orderedPets []) []).events :=
    hevents ▸ List.mem_cons_of_mem _ List.mem_cons_self
  obtain ⟨sel, hread, hselect⟩ := Compiler.select_of_selectRaw _ hraw
  cases hread
  obtain ⟨hselections, hraws, hfilters, hcalls⟩ := template_iff (ε := Unit)
  -- the order and the filter write the alias alone
  refine ⟨hraw, hfilter, hevents, ?_, ?_, ?_, ?_⟩
  · obtain ⟨_, _, heq, hns, htemplates⟩ := hraws _ _ _ _ rfl hraw
    cases heq
    cases hns
    exact htemplates.whereClause.mpr fun n hn => hnames n (hclause hn)
  · obtain ⟨_, -, htemplates⟩ := hselections _ _ _ _ rfl hselect
    exact htemplates.sortClause.mpr halias
  · obtain ⟨_, hns, htemplates⟩ := hfilters _ _ _ _ rfl hfilter
    cases hns
    exact htemplates.whereClause.mpr halias
  · exact (hcalls _ _ _ _ _ _ _ _ _ _ _ connect_salesSession rfl rfl hexecuted).mpr hnames

/-- A table with a percent sign in its name. -/
def discounted : Call Unit := .delete "50% off" (.map [(.text "id", .int 1)]) false

/-- What is executed for it: the driver takes the percent sign for the start of a placeholder. -/
def discountedStatement : Statement := ⟨"DELETE FROM \"50% off\" WHERE \"id\" = %s", [.int 1]⟩

/-- **Not every statement is a template**, as names are written as they are. -/
theorem not_template_of_discounted :
    ¬ ∀ (s : Session) (call : Call Unit) (replies : List Reply) (stmt : Statement),
      (connect (.text "postgresql") (.text "pyformat") none none false [] []).result = .ok s →
      .executed stmt ∈ (s.run call replies).events →
      count? stmt.sql.toList = some stmt.parameters.length := by
  intro h
  have hs : (connect (.text "postgresql") (.text "pyformat") none none false [] []).result =
      .ok ⟨{ dialect := { Dialect.postgres with style := .percent } }, [], none⟩ := by
    rfl
  have hevents : ((⟨{ dialect := { Dialect.postgres with style := .percent } }, [], none⟩ :
      Session).run discounted []).events =
        [.entered, .executed discountedStatement, .committed] := by
    rfl
  -- the percent sign of the table is neither doubled nor part of a placeholder
  have hcount : count? discountedStatement.sql.toList = none := by
    rfl
  rw [h _ discounted [] _ hs (hevents ▸ List.mem_cons_of_mem _ List.mem_cons_self)] at hcount
  cases hcount

end Session

end BoundSql
