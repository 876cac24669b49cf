import BoundSql.Proofs.Clause.Draft
import BoundSql.Proofs.Clause.Offence

/-!
# Clauses behind one another

A clause without its keyword can be written behind other parts of a statement, and behind another
clause. The clause of siblings put behind others is the clause of the others, a seam, and their own
clause, numbered on from the values of the others. What the seam shows is decided by the first of
the siblings behind it that anything is kept of, however many are dropped on either side of it.

The argument is one about outlines, which append (`Node.outline_append`): only the first term of a
clause does not show its joiner, so a seam shows the joiner of the first term behind it
(`Sql.write_append_cons`), and that is the joiner of the first node that is kept
(`Node.find?_isKept_of_outline`).

* `Compiler.fragment_eq_ok_iff` — whether there is a clause at all does not depend on the number of
  parameters in front of it;
* `Compiler.fragment_shifts` — and these parameters change nothing in it but the numbers of its
  placeholders;
* `Compiler.fragment_append` — clauses behind one another.
-/

namespace BoundSql

/-! ### Terms behind one another -/

namespace Sql

theorem pieces_append (first : Bool) (ts us : List Term) :
    pieces first (ts ++ us) = pieces first ts ++ pieces (first && ts.isEmpty) us := by
  induction ts generalizing first with
  | nil => simp
  | cons t ts ih =>
    rw [List.cons_append, pieces_cons, ih, pieces_cons, List.isEmpty_cons, Bool.and_false]
    simp [List.append_assoc]

/-- **A seam** shows the joiner of the first term behind it. -/
theorem write_append_cons (style : PlaceholderStyle) (t : Term) (ts : List Term) (u : Term)
    (us : List Term) :
    write style (pieces true (t :: ts ++ u :: us)) =
      write style (pieces true (t :: ts)) ++ between u.joiner ++
        write style (pieces true (u :: us)) := by
  rw [pieces_append, write_append, List.isEmpty_cons, Bool.and_false, pieces_cons false,
    pieces_cons true, String.append_assoc]
  rfl

end Sql

/-! ### Nodes that are kept -/

namespace Node

/-- Whether anything of a node is kept: it has a leaf with a known operator, at any depth. -/
def isKept (n : Node) : Bool := n.leaves.any fun l => !l.isUnknown

/-- The condition keyword of a node with the blank behind it, if the node has one. -/
def lead (n : Node) : String :=
  match n.joiner with
  | some j => j.keyword ++ " "
  | none => ""

theorem between_joiner (n : Node) : Sql.between n.joiner = " " ++ n.lead := by
  unfold lead Sql.between
  cases n.joiner with
  | none => rfl
  | some j => exact String.append_assoc

theorem isKept_eq_false_iff (n : Node) : n.isKept = false ↔ kept [n] = [] := by
  have hleaves : leavesOf [n] = n.leaves := List.append_nil _
  rw [isKept, List.any_eq_false, kept, hleaves, List.filterMap_eq_nil_iff]
  refine forall_congr' fun l => imp_congr_right fun _ => ?_
  rw [Leaf.isUnknown_eq, Leaf.kept?]
  cases l.form? <;> simp

section Outline

variable {d : Dialect} {aliases : Aliases} {bound : Nat}

theorem joiner_of_outlineOf {n : Node} {t : Sql.Term} (h : outlineOf d aliases bound n = some t) :
    t.joiner = n.joiner := by
  cases n with
  | leaf l =>
    obtain ⟨k, -, rfl⟩ := Option.map_eq_some_iff.mp h
    rfl
  | group children j =>
    -- a group has a term only if something is left inside, and then its own joiner
    rw [outlineOf] at h
    cases houtline : outline d aliases bound children with
    | nil =>
      rw [houtline] at h
      cases h
    | cons t' ts =>
      rw [houtline] at h
      cases h
      rfl

theorem outlineOf_eq_none_iff {n : Node} :
    outlineOf d aliases bound n = none ↔ n.isKept = false := by
  have hsingle : outline d aliases bound [n] = (outlineOf d aliases bound n).toList :=
    List.append_nil _
  rw [isKept_eq_false_iff, ← outline_eq_nil d aliases bound, hsingle]
  cases outlineOf d aliases bound n <;> simp

/-- **The first term of an outline** is that of the first node that is kept. -/
theorem find?_isKept_of_outline {ns : List Node} {t : Sql.Term} {ts : List Sql.Term}
    (h : outline d aliases bound ns = t :: ts) :
    ∃ n, ns.find? isKept = some n ∧ n.joiner = t.joiner := by
  induction ns generalizing bound with
  | nil => cases h
  | cons n ns ih =>
    rw [outline] at h
    cases hterm : outlineOf d aliases bound n with
    | none =>
      -- a node without a term is passed over by both
      have hdropped : ¬ n.isKept = true := by simp [outlineOf_eq_none_iff.mp hterm]
      rw [hterm] at h
      rw [List.find?_cons_of_neg hdropped]
      exact ih h
    | some u =>
      -- the first term is that of the first node that has one
      have hkept : n.isKept = true := by
        rw [← Bool.not_eq_false]
        intro hdropped
        cases hterm.symm.trans (outlineOf_eq_none_iff.mpr hdropped)
      rw [hterm] at h
      obtain ⟨rfl, -⟩ := List.cons.inj h
      exact ⟨n, List.find?_cons_of_pos hkept, (joiner_of_outlineOf hterm).symm⟩

end Outline

end Node

open Node

/-! ### Clauses without their keyword -/

/-- **A clause made of two.** The values are those of both; the text is that of one if the other is
empty, and else both with a seam between them, which shows the joiner of the first node behind it
that is kept. -/
structure Compiled.Concatenates (r a b : Compiled) (behind : List Node) : Prop where
  values : r.values = a.values ++ b.values
  whereClause_of_right_empty : b.whereClause = "" → r.whereClause = a.whereClause
  whereClause_of_left_empty : a.whereClause = "" → r.whereClause = b.whereClause
  whereClause : a.whereClause ≠ "" → b.whereClause ≠ "" →
    ∃ n, behind.find? Node.isKept = some n ∧
      r.whereClause = a.whereClause ++ " " ++ n.lead ++ b.whereClause

namespace Compiler

/-- The clause of siblings, without its keyword, behind so many parameters. -/
def fragment (c : Compiler) (bound : Nat) (ns : List Node) : Report Error Compiled :=
  c.select { keyword := false, offset := bound } (.ofNodes ns)

variable (c : Compiler)

/-- What the clause of siblings is, if there is one. -/
def fragmentOf (bound : Nat) (ns : List Node) : Compiled :=
  ⟨.int c.limit, .int 0, "",
    Sql.write c.dialect.style (Sql.pieces true (outline c.dialect c.aliases bound ns)),
    Node.values ns⟩

/-- **Whether there is a clause** is decided by the leaves alone. -/
theorem fragment_eq_ok_iff {bound : Nat} {ns : List Node} {r : Compiled} :
    (c.fragment bound ns).result = .ok r ↔
      (∃ u, (c.survey (leavesOf ns)).result = .ok u) ∧ c.fragmentOf bound ns = r := by
  have hselect := c.select_eq_survey (k := { keyword := false, offset := bound })
    (s := .ofNodes ns) rfl rfl
  rw [fragment, hselect, Report.result_map_eq_ok]
  constructor
  · rintro ⟨u, hu, rfl⟩
    exact ⟨⟨u, Report.result_mapError_eq_ok.mp hu⟩, rfl⟩
  · rintro ⟨⟨u, hu⟩, rfl⟩
    exact ⟨u, Report.result_mapError_eq_ok.mpr hu, rfl⟩

/-- **A clause behind other parameters** differs in the numbers of its placeholders alone: it is one
draft, with the values in place and all text settled, that is numbered on from the parameters in
front of it. -/
theorem fragment_shifts {bound : Nat} {ns : List Node} {r : Compiled}
    (h : (c.fragment bound ns).result = .ok r) (bound' : Nat) :
    ∃ r', (c.fragment bound' ns).result = .ok r' ∧
      r'.whereClause = (Node.draft c.dialect c.aliases true ns).text c.dialect.style bound' ∧
      r'.values = (Node.draft c.dialect c.aliases true ns).values := by
  obtain ⟨hsurvey, -⟩ := c.fragment_eq_ok_iff.mp h
  refine ⟨c.fragmentOf bound' ns, c.fragment_eq_ok_iff.mpr ⟨hsurvey, rfl⟩, ?_, ?_⟩
  · rw [Sql.Draft.text, numbered_draft]
    rfl
  · rw [values_draft]
    rfl

theorem fragmentOf_append (bound : Nat) (front behind : List Node) :
    (c.fragmentOf bound (front ++ behind)).Concatenates (c.fragmentOf bound front)
      (c.fragmentOf (bound + (Node.values front).length) behind) behind := by
  have houtline := outline_append c.dialect c.aliases bound front behind
  rw [← length_values] at houtline
  -- one part may be empty, and only between two that are not there is a joiner
  refine ⟨values_append front behind, ?_, ?_, ?_⟩
  · intro hempty
    have hnil := (Sql.write_pieces_eq_empty c.dialect.style _).mp hempty
    show Sql.write _ _ = Sql.write _ _
    rw [houtline, hnil, List.append_nil]
  · intro hempty
    have hnil := (Sql.write_pieces_eq_empty c.dialect.style _).mp hempty
    show Sql.write _ _ = Sql.write _ _
    rw [houtline, hnil, List.nil_append]
  · intro hfront hbehind
    have hfront := mt (Sql.write_pieces_eq_empty c.dialect.style _).mpr hfront
    have hbehind := mt (Sql.write_pieces_eq_empty c.dialect.style _).mpr hbehind
    obtain ⟨t, ts, hts⟩ := List.exists_cons_of_ne_nil hfront
    obtain ⟨u, us, hus⟩ := List.exists_cons_of_ne_nil hbehind
    obtain ⟨n, hfound, hjoiner⟩ := find?_isKept_of_outline hus
    refine ⟨n, hfound, ?_⟩
    show Sql.write _ _ = Sql.write _ _ ++ " " ++ n.lead ++ Sql.write _ _
    rw [houtline, hts, hus, Sql.write_append_cons, ← hjoiner, between_joiner,
      ← String.append_assoc]

/-- **Clauses concatenate.** Where siblings and others have a clause each, behind any number of
parameters, the others put behind the siblings have one too:

* its values are those of both, and its text is the two texts with the seam between them, the second
  numbered on from the values of the first; where nothing is kept of the siblings in front it is the
  text of the others, behind the parameters alone;
* the number of parameters in front of any of the three clauses changes the numbers of its
  placeholders and nothing else. -/
theorem fragment_append {bound : Nat} {front behind : List Node} {a b : Compiled}
    (ha : (c.fragment bound front).result = .ok a)
    (hb : (c.fragment bound behind).result = .ok b) :
    (∃ b' r, (c.fragment (bound + a.values.length) behind).result = .ok b' ∧
      (c.fragment bound (front ++ behind)).result = .ok r ∧
      r.Concatenates a b' behind ∧
      (a.whereClause = "" → r.whereClause = b.whereClause)) ∧
    ∀ ns ∈ [front, behind, front ++ behind], ∀ bound', ∃ r,
      (c.fragment bound' ns).result = .ok r ∧
      r.whereClause = (Node.draft c.dialect c.aliases true ns).text c.dialect.style bound' ∧
      r.values = (Node.draft c.dialect c.aliases true ns).values := by
  obtain ⟨⟨u, hfront⟩, rfl⟩ := c.fragment_eq_ok_iff.mp ha
  obtain ⟨⟨v, hbehind⟩, rfl⟩ := c.fragment_eq_ok_iff.mp hb
  -- the leaves in front are surveyed first, then those behind
  have hboth : (c.survey (leavesOf (front ++ behind))).result = .ok v := by
    rw [leavesOf_append, survey_append]
    exact Report.result_bind_eq_ok.mpr ⟨u, hfront, hbehind⟩
  have hr : (c.fragment bound (front ++ behind)).result =
      .ok (c.fragmentOf bound (front ++ behind)) := c.fragment_eq_ok_iff.mpr ⟨⟨v, hboth⟩, rfl⟩
  have hconcat := c.fragmentOf_append bound front behind
  refine ⟨⟨_, _, c.fragment_eq_ok_iff.mpr ⟨⟨v, hbehind⟩, rfl⟩, hr, hconcat, ?_⟩, ?_⟩
  · intro hempty
    -- nothing kept in front, so nothing is bound in front either
    have hkept : kept front = [] := (outline_eq_nil c.dialect c.aliases bound front).mp
      ((Sql.write_pieces_eq_empty c.dialect.style _).mp hempty)
    have hcount : (Node.values front).length = 0 := by rw [length_values, hkept]; rfl
    rw [hconcat.whereClause_of_left_empty hempty, hcount]
    rfl
  · intro ns hns bound'
    rcases List.mem_cons.mp hns with rfl | hns
    · exact c.fragment_shifts ha bound'
    · rcases List.mem_cons.mp hns with rfl | hns
      · exact c.fragment_shifts hb bound'
      · rw [List.mem_singleton.mp hns]
        exact c.fragment_shifts hr bound'

/-- A leaf that is dropped and one that is kept. -/
def seamFront : List Node :=
  [.leaf ⟨"ghost", "like", .null, none⟩, .leaf ⟨"kind", "eq", .text "cat", some .and⟩]

/-- A group that is emptied and a group of two leaves that are kept. -/
def seamBehind : List Node :=
  [.group [.leaf ⟨"pets.born", "near", .null, none⟩] (some .and),
    .group [.leaf ⟨"owner", "eq", .text "Ann", none⟩,
      .leaf ⟨"pets.name", "contains", .text "x", some .and⟩] (some .or)]

/-- The seam shows the joiner of the second group, the first being dropped. -/
theorem fragment_append_of_seam :
    let a : Compiled := ⟨.int standardLimit, .int 0, "", "\"kind\" = $3", [.text "cat"]⟩
    let b : Compiled := ⟨.int standardLimit, .int 0, "",
      "( \"owner\" = $3 AND \"pet\".\"name\" ILIKE '%' || $4 || '%' )", [.text "Ann", .text "x"]⟩
    (standard.leniently.fragment 2 seamFront).result = .ok a ∧
    (standard.leniently.fragment 2 seamBehind).result = .ok b ∧
    ∃ r, (standard.leniently.fragment 2 (seamFront ++ seamBehind)).result = .ok r ∧
      r.values = [.text "cat", .text "Ann", .text "x"] ∧
      r.whereClause = "\"kind\" = $3 OR " ++
        "( \"owner\" = $4 AND \"pet\".\"name\" ILIKE '%' || $5 || '%' )" := by
  intro a b
  have ha : (standard.leniently.fragment 2 seamFront).result = .ok a := by rfl
  have hb : (standard.leniently.fragment 2 seamBehind).result = .ok b := by rfl
  obtain ⟨⟨b', r, hb', hr, hconcat, -⟩, -⟩ := fragment_append standard.leniently ha hb
  -- behind the value of the first clause the second is numbered from four on
  have hshifted : (standard.leniently.fragment 3 seamBehind).result = .ok { b with
      whereClause := "( \"owner\" = $4 AND \"pet\".\"name\" ILIKE '%' || $5 || '%' )" } := by rfl
  obtain rfl := Except.ok.inj (hshifted.symm.trans hb')
  obtain ⟨n, hfound, htext⟩ := hconcat.whereClause (by decide) (by decide)
  have hlead : n.lead = "OR " := by
    cases hfound
    rfl
  refine ⟨ha, hb, r, hr, hconcat.values, ?_⟩
  rw [htext, hlead]
  rfl

end Compiler

end BoundSql
