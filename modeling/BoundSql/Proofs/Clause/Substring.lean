import BoundSql.Proofs.Clause.Comparison
import BoundSql.Proofs.Clause.FreeText
import BoundSql.Proofs.Sql.Like

/-!
# Searching for a text

A leaf that contains a text is compiled to a pattern: the text between two percent signs. So is a
search for a free text, once for each field. The text is bound as it is, and where it has percent
signs or underscores the store cannot tell them from wildcards. So a text is found wherever it
occurs, but only for a text without wildcards is that the whole answer.

* `Sql.isLike?_contains` — the truth of a compiled pattern test;
* `Compiler.contains_holds` — what leaves and searches find;
* `Compiler.contains_elsewhere` — a text that is found where it does not occur.
-/

namespace BoundSql

open Node

namespace Sql

/-! ### Truth of pattern tests -/

/-- Percent signs as a driver with percent placeholders hands them on, one for two. -/
def undouble : List Char → List Char
  | '%' :: '%' :: cs => '%' :: undouble cs
  | c :: cs => c :: undouble cs
  | [] => []

/-- A literal as it reaches the store. -/
def received : PlaceholderStyle → String → List Char
  | .percent, s => undouble s.toList
  | _, s => s.toList

/-- What pattern tests are evaluated on: the placeholder style of the driver, the characters that
each operator takes for the same, and the texts in the columns of a row, none of them null. -/
structure Texts where
  style : PlaceholderStyle
  fold : String → Char → Char
  content : Column → List Char

/-- **Whether a pattern test is true**: the content of the column is matched by the pattern that is
put together from the literals and the text of the parameter. Other tests, and tests without a text,
are not evaluated. -/
def Test.isLike? (row : Texts) (values : Nat → Option Value) (t : Test) : Option Bool :=
  match t.phrase with
  | .pattern operator before after =>
    ((values t.number).bind Value.asText?).map fun text =>
      like (row.fold operator)
        (received row.style before ++ (text.toList ++ received row.style after))
        (row.content t.column)
  | _ => none

/-- **A compiled pattern** is the text between two percent signs, in every placeholder style. -/
theorem isLike?_contains {d : Dialect} {row : Texts} (hstyle : row.style = d.style)
    {values : Nat → Option Value} {text : String} {number : Nat}
    (hvalue : values number = some (.text text)) (column : Column) :
    Test.isLike? row values ⟨column, .ofForm d .pattern, number⟩ =
      some (like (row.fold d.patternOperator) (Sql.anywhere text.toList)
        (row.content column)) := by
  -- however it is written, the store receives one percent sign
  have hpercent : received d.style d.style.percentSign = ['%'] := by
    cases d.style <;> rfl
  have heval : Test.isLike? row values ⟨column, .ofForm d .pattern, number⟩ =
      ((values number).bind Value.asText?).map fun text =>
        like (row.fold d.patternOperator)
          (received row.style d.style.percentSign ++
            (text.toList ++ received row.style d.style.percentSign))
          (row.content column) := rfl
  rw [heval, hvalue, hstyle, hpercent]
  rfl

end Sql

/-! ### What is compiled -/

namespace Compiler

open Selection

/-- A search stands behind the filters, and its text is bound once for each field. -/
theorem select_search {c : Compiler} {k : Compilation} {s : Selection} {r : Compiled}
    {text : String} {bound : Nat} (hbound : k.offset = bound) (htext : s.searchText = some text)
    (hfields : k.textFields ≠ []) (h : (c.select k s).result = .ok r) :
    let alone := Sql.settle true (outline c.dialect c.aliases bound s.nodes)
    let search := c.searchTests (bound + (kept s.nodes).length) k.textFields
    r.whereClause = withKeyword k.keyword (Sql.write c.dialect.style (Sql.pieces true
      (alone ++ [.group (if alone.isEmpty then none else some .and) (Sql.anyOf search)]))) ∧
    r.values = values s.nodes ++ List.replicate k.textFields.length (.text text) := by
  obtain ⟨bound', ns, hbound', hns, hrenders⟩ := select_renders h
  obtain rfl : bound' = bound := Int.ofNat.inj (hbound'.symm.trans hbound)
  intro alone search
  -- the nodes end in the search, so its text is bound behind the values of the filter
  constructor
  · obtain ⟨field, fields, hcons⟩ := List.exists_cons_of_ne_nil hfields
    have hsearch : search = c.searchTests (bound' + (kept s.nodes).length) (field :: fields) := by
      rw [← hcons]
    rw [hcons] at hns
    obtain rfl := effectiveNodes_of_search htext hns
    rw [hrenders.whereClause, hsearch, ← c.settle_outline_search bound' text field fields s.nodes,
      Sql.pieces_settle]
  · rw [hrenders.values, values_effectiveNodes hns, searchValues, htext]

/-- The tests of a search compare the fields with the values behind those of the filters. -/
theorem isLike?_search (c : Compiler) {row : Sql.Texts} (hstyle : row.style = c.dialect.style)
    (bound : Nat) (text : String) (front : List Value) (fields : List String) :
    let values := Sql.argument bound (front ++ List.replicate fields.length (.text text))
    (c.searchTests (bound + front.length) fields).map (Sql.Test.isLike? row values) =
      fields.map fun field =>
        some (Sql.like (row.fold c.dialect.patternOperator) (Sql.anywhere text.toList)
          (row.content (Column.resolve field c.aliases).shown)) := by
  intro values
  refine List.ext_getElem (by simp [searchTests]) fun i hi hi' => ?_
  rw [List.length_map] at hi'
  -- the values of the filters come first, so the placeholders of the search reach the copies
  have hvalue : values (bound + front.length + i + 1) = some (.text text) := by
    have hnumber : bound + front.length + i + 1 = bound + (front.length + i) + 1 := by omega
    rw [hnumber]
    refine (Sql.argument_add ..).trans ?_
    rw [List.getElem?_append_right (Nat.le_add_right ..),
      Nat.add_sub_cancel_left, List.getElem?_replicate, if_pos hi']
  rw [List.getElem_map, List.getElem_map, ← Sql.isLike?_contains hstyle hvalue]
  simp [searchTests]

/-- **What leaves and searches find.** For a text of any characters, any row, and an operator for
patterns that can be read and does not take all characters for the same:

* a leaf that contains the text is compiled at any place of a filter, what it is compiled to reads
  as one pattern test, and the test is true exactly if the text between two percent signs matches
  the content of the column;
* a search for the text stands in a group of its own behind the filters, with such a test for each
  field, and the group is true exactly if the pattern matches the content of one of the fields;
* the pattern matches the contents of which some part is matched by the text as a pattern of its
  own, among them all in which the text occurs;
* it matches these and no others, whatever the content, exactly if the text has no wildcards.
-/
theorem contains_holds {c : Compiler} (hoperator : Sql.IsOperator c.dialect.patternOperator)
    {row : Sql.Texts} (hstyle : row.style = c.dialect.style)
    (hfold : ∃ x, row.fold c.dialect.patternOperator x ≠ row.fold c.dialect.patternOperator '_')
    (text : String) :
    let fold := row.fold c.dialect.patternOperator
    let found := Sql.like fold (Sql.anywhere text.toList)
    let column field := (Column.resolve field c.aliases).shown
    (∀ (offset : Nat) (earlier later : List Value) (field : String) (j : Option Joiner),
      let t : Sql.Test :=
        ⟨column field, .ofForm c.dialect .pattern, offset + earlier.length + 1⟩
      (∃ clause, (c.settings offset).comparison earlier.length
          (Leaf.comparison c.aliases ⟨field, Operator.contains.tag, .text text, j⟩) =
            .ok (some clause) ∧
        Sql.read (offset + earlier.length) clause = some [.test none t]) ∧
      t.isLike? row (Sql.argument offset (earlier ++ .text text :: later)) =
        some (found (row.content (column field)))) ∧
    (∀ (k : Compilation) (s : Selection) (r : Compiled), s.searchText = some text →
      k.textFields ≠ [] → (c.select k s).result = .ok r →
      let bound := k.offset.toNat
      let alone := Sql.settle true (outline c.dialect c.aliases bound s.nodes)
      let search := c.searchTests (bound + (kept s.nodes).length) k.textFields
      let truth := Sql.Test.isLike? row (Sql.argument bound r.values)
      r.whereClause = withKeyword k.keyword (Sql.write c.dialect.style (Sql.pieces true
        (alone ++ [.group (if alone.isEmpty then none else some .and) (Sql.anyOf search)]))) ∧
      (search.map truth = k.textFields.map fun field => some (found (row.content (column field)))) ∧
      Sql.holds (fun t => truth t == some true) (Sql.anyOf search) =
        k.textFields.any fun field => found (row.content (column field))) ∧
    (∀ content, found content = true ↔
      ∃ part, part <:+: content ∧ Sql.like fold text.toList part = true) ∧
    (∀ content, Sql.Occurs fold text.toList content → found content = true) ∧
    ((∀ content, found content = true ↔ Sql.Occurs fold text.toList content) ↔
      '%' ∉ text.toList ∧ '_' ∉ text.toList) := by
  intro fold found column
  -- what the pattern matches does not depend on where it stands
  refine ⟨?_, ?_, fun content => Sql.like_anywhere, fun content => Sql.like_of_occurs,
    Sql.like_iff_occurs hfold⟩
  · -- a leaf: its placeholder stands for the text, wherever the leaf is
    intro offset earlier later field j t
    have hform : (⟨field, Operator.contains.tag, .text text, j⟩ : Leaf).form? = some .pattern :=
      rfl
    have hsupports : c.dialect.Supports .pattern := ⟨fun _ h => (nomatch h), hoperator⟩
    have hvalue := Sql.argument_append_cons offset earlier later (.text text)
    exact ⟨c.comparison_reads offset earlier.length hform hsupports,
      Sql.isLike?_contains hstyle hvalue (column field)⟩
  · -- a search: the test of each field has the text, and the group holds if one of them does
    intro k s r htext hfields h bound alone search truth
    obtain ⟨bound', -, hbound, -, -⟩ := select_renders h
    have htoNat : bound = bound' := by
      rw [← Int.toNat_natCast bound', ← hbound]
    obtain ⟨hclause, hvalues⟩ := select_search hbound htext hfields h
    rw [← htoNat] at hclause
    -- the placeholders of the search begin behind the values of the filters
    have hlength : (kept s.nodes).length = (values s.nodes).length := (length_values _).symm
    have htruth : search.map truth =
        k.textFields.map fun field => some (found (row.content (column field))) := by
      have htests := c.isLike?_search hstyle bound text (values s.nodes) k.textFields
      rwa [← hvalues, ← hlength] at htests
    -- without fields there would be no group at all
    have hne : search ≠ [] := by
      intro hnil
      exact hfields (List.mapIdx_eq_nil_iff.mp hnil)
    have htrue : ∀ b : Bool, (some b == some true) = b := by decide
    refine ⟨hclause, htruth, ?_⟩
    calc Sql.holds (fun t => truth t == some true) (Sql.anyOf search)
        = (search.map truth).any (· == some true) := by
          rw [Sql.holds_anyOf _ hne, List.any_map]
          rfl
      _ = k.textFields.any fun field => found (row.content (column field)) := by
          rw [htruth, List.any_map]
          exact congrArg k.textFields.any (funext fun field => htrue _)

/-! ### Names -/

/-- A row with one text in every column, of a store whose one operator ignores case. -/
def named (name : String) : Sql.Texts where
  style := .dollar
  fold operator := if operator = "ILIKE" then Char.toLower else id
  content _ := name.toList

/-- The leaf that looks for a text in names. -/
def nameLeaf (text : String) : Leaf := ⟨"name", Operator.contains.tag, .text text, none⟩

/-- The test it is compiled to. -/
def nameTest : Sql.Test := ⟨⟨none, "name"⟩, .pattern "ILIKE" "%" "%", 1⟩

/-- A name is found by a part of it in another case, and only such names are. -/
theorem contains_holds_of_name :
    Sql.IsOperator ({} : Compiler).dialect.patternOperator ∧
    (named "Bob").style = ({} : Compiler).dialect.style ∧
    ((named "Bob").fold "ILIKE" 'x' ≠ (named "Bob").fold "ILIKE" '_') ∧
    (({} : Compiler).settings 0).comparison 0 ((nameLeaf "OB").comparison []) =
      .ok (some "\"name\" ILIKE '%' || $1 || '%'") ∧
    nameTest.isLike? (named "Bob") (Sql.argument 0 [.text "OB"]) = some true ∧
    ∀ content, Sql.like Char.toLower (Sql.anywhere "OB".toList) content = true ↔
      Sql.Occurs Char.toLower "OB".toList content := by
  have hoperator : Sql.IsOperator ({} : Compiler).dialect.patternOperator := Sql.isOperator_ilike
  have hstyle : (named "Bob").style = ({} : Compiler).dialect.style := rfl
  have hfold : (named "Bob").fold "ILIKE" 'x' ≠ (named "Bob").fold "ILIKE" '_' := by decide
  obtain ⟨hleaf, -, -, hoccurs, hexact⟩ := contains_holds hoperator hstyle ⟨'x', hfold⟩ "OB"
  have htest := (hleaf 0 [] [] "name" none).2
  -- the letters are compared without case, so `OB` is a part of `Bob`
  have hpart : Sql.Occurs Char.toLower "OB".toList "Bob".toList := by
    unfold Sql.Occurs
    decide
  refine ⟨hoperator, hstyle, hfold, by rfl, ?_, hexact.mpr (by decide)⟩
  exact htest.trans (congrArg some (hoccurs _ hpart))

/-- **A text is found where it does not occur**: `50%` in the name `501`, by a leaf and by a
search. -/
theorem contains_elsewhere :
    let clause := "WHERE \"name\" ILIKE '%' || $1 || '%'"
    let search := "WHERE ( \"name\" ILIKE '%' || $1 || '%' )"
    (select {} {} (.ofNodes [.leaf (nameLeaf "50%")])).result =
      .ok ⟨.int standardLimit, .int 0, "", clause, [.text "50%"]⟩ ∧
    (select {} searchInName { Selection.everything with freeText := some "50%" }).result =
      .ok ⟨.int standardLimit, .int 0, "", search, [.text "50%"]⟩ ∧
    Sql.read 0 clause = some [.test none nameTest] ∧
    Sql.read 0 search = some [.group none [.test none nameTest]] ∧
    nameTest.isLike? (named "501") (Sql.argument 0 [.text "50%"]) = some true ∧
    ¬ Sql.Occurs ((named "501").fold "ILIKE") "50%".toList "501".toList := by
  refine ⟨by rfl, by rfl, by rfl, by rfl, by decide, ?_⟩
  -- the pattern `%50%%` matches `501`, and `50%` is no part of it
  unfold Sql.Occurs
  decide

end Compiler

end BoundSql
