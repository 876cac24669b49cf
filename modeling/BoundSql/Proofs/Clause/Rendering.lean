import BoundSql.Proofs.Clause.Outline
import BoundSql.Proofs.Report

/-!
# The pass and the tree

`Clause.Settings.render` goes over the flat form of a filter once, with a stack of open groups and a
joiner that waits for its group. What it gives is what recursion over the tree gives: the text of
the outline and the values of the leaves that are kept.

* `Compiler.run_flatten` — the tokens of siblings, read in any state without a waiting joiner, add
  the terms of the outline to the innermost scope and bind the values of their leaves;
* `Compiler.render_flatten` — the whole pass, which never closes a group that is not open.

Whether the pass fails, and which notices it leaves, does not depend on the shape of the tree:
`Compiler.survey` goes over the leaves alone.
-/

namespace BoundSql

/-! ### Items -/

namespace Clause

/-- The item that a term is collected as. -/
def Item.ofTerm (style : PlaceholderStyle) (t : Sql.Term) : Item :=
  ⟨t.joiner, Sql.write style t.pieces⟩

theorem blank_append_joined (style : PlaceholderStyle) (t : Sql.Term) :
    " " ++ (Item.ofTerm style t).joined = Sql.between t.joiner ++ Sql.write style t.pieces := by
  unfold Item.joined Item.ofTerm
  cases t.joiner with
  | none => rfl
  | some j =>
    show " " ++ (j.keyword ++ " " ++ _) = " " ++ j.keyword ++ " " ++ _
    rw [String.append_assoc, String.append_assoc, String.append_assoc]

/-- Items behind a text are written with what stands between siblings. -/
theorem intercalate_joined (style : PlaceholderStyle) (text : String) (ts : List Sql.Term) :
    " ".intercalate (text :: (ts.map (Item.ofTerm style)).map Item.joined) =
      text ++ Sql.write style (Sql.pieces false ts) := by
  induction ts generalizing text with
  | nil => simp
  | cons t ts ih =>
    have hblank : ∀ a b : String, text ++ " " ++ (a ++ b) = text ++ (" " ++ a ++ b) := by
      intro a b
      simp only [String.append_assoc]
    rw [List.map_cons, List.map_cons, String.intercalate_cons_cons, ih, hblank,
      blank_append_joined, Sql.pieces_cons, Sql.write_append, Sql.write_append, String.append_assoc]
    simp [Sql.Piece.text]

/-- **Joining items** writes the terms they were collected from. -/
theorem join_ofTerm (style : PlaceholderStyle) (ts : List Sql.Term) :
    join (ts.map (Item.ofTerm style)) = Sql.write style (Sql.pieces true ts) := by
  cases ts with
  | nil => rfl
  | cons t ts =>
    refine (intercalate_joined style _ ts).trans ?_
    rw [Sql.pieces_cons, if_pos rfl, List.nil_append, Sql.write_append]
    rfl

/-- The state after further siblings of the innermost scope: their terms are collected and their
values bound. -/
def State.collect (st : State) (style : PlaceholderStyle) (ts : List Sql.Term)
    (values : List Value) : State :=
  { st with
    items := (ts.map (Item.ofTerm style)).reverse ++ st.items
    values := st.values ++ values }

theorem State.collect_nil (st : State) (style : PlaceholderStyle) :
    st.collect style [] [] = st := by
  rw [State.collect, List.append_nil]
  rfl

theorem State.collect_collect (st : State) (style : PlaceholderStyle) (ts us : List Sql.Term)
    (vs ws : List Value) :
    (st.collect style ts vs).collect style us ws = st.collect style (ts ++ us) (vs ++ ws) := by
  simp [State.collect]

theorem Settings.run_append (s : Settings) (st : State) (a b : List Token) :
    s.run st (a ++ b) = (s.run st a).bind fun st => s.run st b := by
  induction a generalizing st with
  | nil => rw [List.nil_append, Settings.run, Report.ok_bind]
  | cons t a ih =>
    rw [List.cons_append, Settings.run, Settings.run, Report.bind_assoc]
    exact congrArg _ (funext ih)

end Clause

namespace Compiler

open Clause Node

/-! ### What the pass says of the leaves -/

/-- What the pass has to say of a leaf: nothing, a notice that it is dropped, or the reason why it
cannot be rendered. -/
def verdict (c : Compiler) (l : Leaf) : Report ClauseError Unit :=
  match l.form? with
  | some (.membership _) =>
    if c.dialect.hasMembership then .ok () else .fail (.unsupported l.operator c.dialect.name)
  | some _ => .ok ()
  | none =>
    if c.strict then .fail (.unknown l.operator (l.comparison c.aliases).field)
    else ⟨[.droppedLeaf (l.column c.aliases).sql l.operator], .ok ()⟩

/-- What the pass has to say of leaves, up to the first that cannot be rendered. -/
def survey (c : Compiler) : List Leaf → Report ClauseError Unit
  | [] => .ok ()
  | l :: ls => (c.verdict l).bind fun _ => c.survey ls

theorem survey_append (c : Compiler) (a b : List Leaf) :
    c.survey (a ++ b) = (c.survey a).bind fun _ => c.survey b := by
  induction a with
  | nil => rw [List.nil_append, survey, Report.ok_bind]
  | cons l a ih => rw [List.cons_append, survey, ih, survey, Report.bind_assoc]

/-- Every leaf is rendered or has a reason of its own why not. -/
theorem survey_ne_unbalanced (c : Compiler) (ls : List Leaf) :
    (c.survey ls).result ≠ .error .unbalanced := by
  -- a leaf fails for its operator, never for a bracket
  have hleaf : ∀ l, (c.verdict l).result ≠ .error .unbalanced := by
    intro l
    unfold verdict
    split
    · split <;> exact fun h => nomatch h
    · exact fun h => nomatch h
    · split <;> exact fun h => nomatch h
  induction ls with
  | nil => exact fun h => nomatch h
  | cons l ls ih =>
    intro h
    cases hl : (c.verdict l).result with
    | error e =>
      rw [survey, Report.bind_of_error hl] at h
      exact hleaf l (hl.trans h)
    | ok _ =>
      rw [survey, Report.bind_of_ok hl] at h
      exact ih h

/-! ### What the pass does -/

section Pass

variable (c : Compiler) (k : Nat)

/-- The state of the pass after siblings of the innermost scope. -/
def passed (st : State) (ns : List Node) : State :=
  st.collect c.dialect.style (outline c.dialect c.aliases (k + st.values.length) ns)
    (Node.values ns)

theorem passed_append (st : State) (a b : List Node) :
    c.passed k (c.passed k st a) b = c.passed k st (a ++ b) := by
  have hvalues : (c.passed k st a).values.length = st.values.length + (kept a).length := by
    simp [passed, State.collect]
  rw [passed, hvalues, passed, State.collect_collect, passed, outline_append,
    values_append, Nat.add_assoc]

theorem placeholder_settings (bound : Nat) :
    (c.settings k).placeholder bound =
      c.dialect.style.placeholder ((k + bound + 1 : Nat) : Int) := by
  have hnumber : (k : Int) + ((bound : Int) + 1) = ((k + bound + 1 : Nat) : Int) := by omega
  exact congrArg c.dialect.style.placeholder hnumber

/-- What becomes of a comparison depends on the form of its operator alone. -/
theorem comparison_eq_match (s : Settings) (bound : Nat) (a : Comparison) :
    s.comparison bound a =
      match Operator.formOf? a.operator with
      | some (.membership negate) =>
        if s.dialect.hasMembership then
          .ok (some (Dialect.membership (s.placeholder bound) a.column.sql negate))
        else .error (.unsupported a.operator s.dialect.name)
      | some .pattern => .ok (some (s.dialect.patternMatch a.column.sql (s.placeholder bound)))
      | some (.symbol sign) =>
        .ok (some (a.column.sql ++ " " ++ sign ++ " " ++ s.placeholder bound))
      | none => if s.strict then .error (.unknown a.operator a.field) else .ok none := by
  unfold Settings.comparison Operator.formOf?
  -- the two look-ups of the tag are independent here: all cases of both are compared
  generalize (Operator.ofTag? a.operator).map Operator.form = named
  generalize Operator.symbolOf? a.operator = sign?
  rcases named with _ | (_ | _ | _)
  · cases sign? <;> rfl
  · cases sign? <;> rfl
  · rfl
  · rfl

/-- A test is written as its dialect writes comparisons of its form. -/
theorem write_test (d : Dialect) (aliases : Aliases) (number : Nat) (l : Leaf)
    (f : Operator.Form) :
    Sql.write d.style (Leaf.test d aliases number (l, f)).pieces =
      match f with
      | .symbol sign => (l.column aliases).sql ++ " " ++ sign ++ " " ++ d.placeholder number
      | .membership negate =>
        Dialect.membership (d.placeholder number) (l.column aliases).sql negate
      | .pattern => d.patternMatch (l.column aliases).sql (d.placeholder number) := by
  -- the percent sign is written as the style has it
  have hquote : Text.quoteWith '\'' d.style.percentSign = "'" ++ d.style.percentSign ++ "'" := by
    cases d.style <;> rfl
  cases f with
  | symbol sign =>
    simp [Leaf.test, Sql.Test.pieces, Sql.Phrase.ofForm, Sql.Piece.text, Dialect.placeholder]
  | membership negate =>
    cases negate <;>
      simp [Leaf.test, Sql.Test.pieces, Sql.Phrase.ofForm, Sql.Piece.text, Dialect.placeholder,
        Dialect.membership, String.append_assoc]
  | pattern =>
    simp [Leaf.test, Sql.Test.pieces, Sql.Phrase.ofForm, Sql.Piece.text, Dialect.placeholder,
      Dialect.patternMatch, String.append_assoc, hquote]

/-- **One leaf** is kept, dropped with a notice, or the end of the pass. -/
theorem step_leaf (st : State) (l : Leaf) :
    (c.settings k).step st (.comparison (l.comparison c.aliases)) =
      (c.verdict l).map fun _ => c.passed k st [.leaf l] := by
  have htag : (l.comparison c.aliases).operator = l.operator := rfl
  have hdialect : (c.settings k).dialect = c.dialect := rfl
  have hstrict : (c.settings k).strict = c.strict := rfl
  rw [Settings.step, comparison_eq_match, verdict, htag, hdialect, hstrict, placeholder_settings]
  cases hf : l.form? with
  | none =>
    -- dropped: nothing is collected, so the state is as before
    have hpassed : c.passed k st [.leaf l] = st := by
      rw [passed, outline_leaf_of_dropped _ _ _ hf, Node.values, kept_leaf_of_dropped hf]
      exact State.collect_nil st _
    have hform : Operator.formOf? l.operator = none := hf
    rw [hform, hpassed]
    cases c.strict with
    | true => rfl
    | false => rfl
  | some f =>
    -- kept: its text is one more item, its value the last one bound
    have hpassed : c.passed k st [.leaf l] =
        { st with
          items := ⟨l.joiner, Sql.write c.dialect.style
            (Leaf.test c.dialect c.aliases (k + st.values.length + 1) (l, f)).pieces⟩ :: st.items
          values := st.values ++ [l.value] } := by
      rw [passed, outline_leaf_of_kept _ _ _ hf, Node.values, kept_leaf_of_kept hf]
      rfl
    have hform : Operator.formOf? l.operator = some f := hf
    rw [hform, hpassed, write_test]
    cases f with
    | symbol sign => rfl
    | membership negate =>
      cases c.dialect.hasMembership with
      | true => rfl
      | false => rfl
    | pattern => rfl

/-- **Opening a group** puts the scope around it aside, with the joiner of the group. -/
theorem run_opening {st : State} (hst : st.pending = none) (j : Option Joiner)
    (rest : List Token) :
    (c.settings k).run st (Token.ofJoiner j ++ .opening :: rest) =
      (c.settings k).run ⟨[], ⟨j, st.items⟩ :: st.groups, none, st.values⟩ rest := by
  cases j with
  | none =>
    show (c.settings k).run st (.opening :: rest) = _
    rw [Settings.run, Settings.step, Report.ok_bind, hst]
  | some j =>
    show (c.settings k).run st (.joiner j :: .opening :: rest) = _
    rw [Settings.run, Settings.step, Report.ok_bind, Settings.run, Settings.step, Report.ok_bind]

/-- **Closing a group** puts its term into the scope around it, unless nothing is left in it. -/
theorem run_closing (items : List Item) (groups : List OpenGroup) (j : Option Joiner)
    (ts : List Sql.Term) (values : List Value) (rest : List Token) :
    (c.settings k).run ⟨(ts.map (Item.ofTerm c.dialect.style)).reverse, ⟨j, items⟩ :: groups,
        none, values⟩ (.closing :: rest) =
      (c.settings k).run (State.collect ⟨items, groups, none, values⟩ c.dialect.style
        (Sql.Term.group? j ts).toList []) rest := by
  rw [Settings.run, Settings.step, List.reverse_reverse, join_ofTerm, Report.ok_bind]
  cases ts with
  | nil =>
    -- nothing inside: the scope around it is taken up as it was
    rw [State.collect, List.append_nil]
    rfl
  | cons t ts =>
    have hne : ¬ (Sql.write c.dialect.style (Sql.pieces true (t :: ts))).isEmpty = true := by
      rw [String.isEmpty_iff, Sql.write_pieces_eq_empty]
      exact List.cons_ne_nil t ts
    rw [State.collect, List.append_nil, if_neg hne, ← Sql.write_group _ j]
    rfl

/-- **The tokens of siblings** add the terms of their outline to the innermost scope and bind the
values of the leaves that are kept.

The scopes around and the values bound already are arbitrary: this is what carries the induction
into a group, whose own siblings are read with one more open group around them. -/
theorem run_flatten {st : State} (hst : st.pending = none) (ns : List Node) (rest : List Token) :
    (c.settings k).run st (flatten c.aliases ns ++ rest) =
      (c.survey (leavesOf ns)).bind fun _ => (c.settings k).run (c.passed k st ns) rest := by
  induction ns using Node.forest_induction generalizing st rest with
  | nil =>
    have hpassed : c.passed k st [] = st := State.collect_nil st _
    rw [leavesOf, survey, Report.ok_bind, hpassed]
    rfl
  | leaf l ns ih =>
    show (c.settings k).run st (.comparison _ :: (flatten c.aliases ns ++ rest)) = _
    have hleaves : leavesOf (.leaf l :: ns) = l :: leavesOf ns := rfl
    rw [Settings.run, step_leaf, Report.bind_map, hleaves, survey, Report.bind_assoc]
    refine congrArg _ (funext fun _ => ?_)
    have hpending : (c.passed k st [.leaf l]).pending = none := hst
    rw [ih hpending, passed_append]
    rfl
  | group children j ns ihInner ih =>
    have htokens : flatten c.aliases (.group children j :: ns) ++ rest =
        Token.ofJoiner j ++ .opening ::
          (flatten c.aliases children ++ .closing :: (flatten c.aliases ns ++ rest)) := by
      simp [flatten, tokens]
    have hleaves : leavesOf (.group children j :: ns) = leavesOf children ++ leavesOf ns := rfl
    rw [htokens, run_opening c k hst, ihInner rfl, hleaves, survey_append, Report.bind_assoc]
    refine congrArg _ (funext fun _ => ?_)
    -- in front of its closing mark the group has the terms of its children and nothing else
    have hinside : c.passed k ⟨[], ⟨j, st.items⟩ :: st.groups, none, st.values⟩ children =
        ⟨((outline c.dialect c.aliases (k + st.values.length) children).map
          (Item.ofTerm c.dialect.style)).reverse, ⟨j, st.items⟩ :: st.groups, none,
          st.values ++ Node.values children⟩ := by
      simp [passed, State.collect]
    -- closed again, the group is one more sibling in front of the others
    have hgroup : State.collect ⟨st.items, st.groups, none,
          st.values ++ Node.values children⟩ c.dialect.style
        (Sql.Term.group? j (outline c.dialect c.aliases (k + st.values.length) children)).toList
        [] = c.passed k st [.group children j] := by
      rw [passed, outline_group_cons, values_group_nil, outline_nil, List.append_nil, State.collect,
        State.collect, List.append_nil, hst]
    have hpending : (c.passed k st [.group children j]).pending = none := hst
    rw [hinside, run_closing, hgroup, ih hpending, passed_append]
    rfl

/-- The state after the whole pass. -/
theorem passed_start (ns : List Node) :
    c.passed k .start ns =
      ⟨((outline c.dialect c.aliases k ns).map (Item.ofTerm c.dialect.style)).reverse, [], none,
        Node.values ns⟩ := by
  simp [passed, State.collect, State.start]

theorem run_start (ns : List Node) :
    (c.settings k).run .start (flatten c.aliases ns) =
      (c.survey (leavesOf ns)).map fun _ => c.passed k .start ns := by
  have hstart : State.start.pending = none := rfl
  have hrun := run_flatten c k hstart ns []
  rw [List.append_nil] at hrun
  rw [hrun]
  exact Report.bind_ok _ fun _ => c.passed k .start ns

/-- **The text of a clause** is that of the outline, its values those of the leaves that are
kept. -/
theorem render_eq (ns : List Node) :
    (c.settings k).render (flatten c.aliases ns) =
      (c.survey (leavesOf ns)).map fun _ =>
        (Sql.write c.dialect.style (Sql.pieces true (outline c.dialect c.aliases k ns)),
          Node.values ns) := by
  rw [Settings.render, run_start, Report.map_map, passed_start, List.reverse_reverse, join_ofTerm]

/-- **Closing marks meet open groups.** Wherever the pass reads a closing mark, a group is open. -/
theorem groups_ne_nil_of_closing (ns : List Node) {before behind : List Token} {st : State}
    (htokens : flatten c.aliases ns = before ++ .closing :: behind)
    (hst : ((c.settings k).run .start before).result = .ok st) : st.groups ≠ [] := by
  intro hgroups
  -- the pass would end right there, for a reason that no leaf gives
  have hend : ((c.settings k).run .start (flatten c.aliases ns)).result =
      .error .unbalanced := by
    rw [htokens, Settings.run_append, Report.bind_of_ok hst, Settings.run, Settings.step, hgroups,
      Report.fail_bind]
    rfl
  rw [run_start] at hend
  have hsurvey := c.survey_ne_unbalanced (leavesOf ns)
  cases hresult : (c.survey (leavesOf ns)).result with
  | error e =>
    rw [Report.map, hresult] at hend
    cases hend
    exact hsurvey hresult
  | ok u =>
    rw [Report.map, hresult] at hend
    cases hend

end Pass

/-! ### The pass as a whole -/

/-- **The pass agrees with recursion over the tree.** For any tree, behind any number of parameters:

* the text is that of the outline and the values are those of the leaves that are kept, in order;
* the tests of the outline are these leaves, the `j`-th of them with the `j`-th number behind `k`;
* the placeholders of the text are numbered without a gap, one for each value;
* the pass ends outside of all groups and without a waiting joiner;
* it never closes a group that is not open.

The pass fails only where a leaf cannot be rendered, which `survey` finds without the pass. -/
theorem render_flatten (c : Compiler) (k : Nat) (ns : List Node) :
    let tokens := flatten c.aliases ns
    let terms := outline c.dialect c.aliases k ns
    ((c.settings k).render tokens = (c.survey (leavesOf ns)).map fun _ =>
      (Sql.write c.dialect.style (Sql.pieces true terms), Node.values ns)) ∧
    (Sql.tests terms =
      (kept ns).mapIdx fun j leaf => Leaf.test c.dialect c.aliases (k + j + 1) leaf) ∧
    Sql.numbers (Sql.pieces true terms) = List.range' (k + 1) (Node.values ns).length ∧
    ((c.settings k).run .start tokens = (c.survey (leavesOf ns)).map fun _ =>
      ⟨(terms.map (Item.ofTerm c.dialect.style)).reverse, [], none, Node.values ns⟩) ∧
    ∀ before behind st, tokens = before ++ .closing :: behind →
      ((c.settings k).run .start before).result = .ok st → st.groups ≠ [] := by
  refine ⟨c.render_eq k ns, tests_outline c.dialect c.aliases k ns, ?_, ?_, ?_⟩
  · -- each kept leaf has one placeholder and one value
    rw [Sql.numbers_pieces, numbers_outline, length_values]
  · rw [run_start, passed_start]
  · -- whatever the pass has met so far, it has opened the group it is about to close
    intro before behind st htokens hst
    exact c.groups_ne_nil_of_closing k ns htokens hst

end Compiler

end BoundSql
