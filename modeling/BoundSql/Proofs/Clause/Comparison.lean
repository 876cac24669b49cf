import BoundSql.Proofs.Clause.Rendering

/-!
# Single comparisons

Every leaf is written by `Clause.Settings.comparison` alone, wherever it stands in a filter: the
text depends on how many values are bound in front of it and on nothing else around it. On its own
that text reads as one test, and the parameter of the test is the value the leaf is bound to.

* `Compiler.comparison_reads` — the text of a leaf that is kept and what it reads as;
* `Sql.argument_append_cons` — the value a placeholder stands for.
-/

namespace BoundSql

/-! ### Arguments -/

namespace Sql

/-- The value of the parameter of the given number, of values that stand behind `bound` others. -/
def argument (bound : Nat) (vs : List Value) (number : Nat) : Option Value :=
  if number ≤ bound then none else vs[number - (bound + 1)]?

theorem argument_add (bound : Nat) (vs : List Value) (i : Nat) :
    argument bound vs (bound + i + 1) = vs[i]? := by
  have hbehind : ¬ bound + i + 1 ≤ bound := by omega
  have hindex : bound + i + 1 - (bound + 1) = i := by omega
  rw [argument, if_neg hbehind, hindex]

/-- **The value a placeholder stands for** is the one bound behind those that were bound
earlier. -/
theorem argument_append_cons (bound : Nat) (earlier later : List Value) (v : Value) :
    argument bound (earlier ++ v :: later) (bound + earlier.length + 1) = some v := by
  rw [argument_add]
  simp

/-- A test reads as itself. -/
theorem read_write_test (style : PlaceholderStyle) {t : Test} (ht : t.Legible) {bound : Nat}
    (hnumber : t.number = bound + 1) :
    read bound (write style t.pieces) = some [.test none t] := by
  have hproper : Proper true [.test none t] := ⟨fun h => (nomatch h), trivial, trivial⟩
  have hlegible : ∀ u ∈ tests [.test none t], u.Legible := by
    intro u hu
    rw [List.mem_singleton.mp hu]
    exact ht
  have hnumbers : (tests [.test none t]).map Test.number = List.range' (bound + 1) 1 :=
    congrArg (fun n => [n]) hnumber
  -- a test alone is a proper outline, so it is read like any other
  have hsays := says_write style hproper hlegible hnumbers false
  have hpieces : pieces true [.test none t] = t.pieces := List.append_nil _
  rw [hpieces] at hsays
  exact hsays.readLexemes_eq

end Sql

/-! ### The text of a leaf -/

/-- Whether a dialect has a form, and writes it so that it is read back. -/
structure Dialect.Supports (d : Dialect) (f : Operator.Form) : Prop where
  /-- Membership is the one form that not every store has. -/
  membership : ∀ negate, f = .membership negate → d.hasMembership = true
  legible : (Sql.Phrase.ofForm d f).Legible

namespace Compiler

/-- **The text of a leaf that is kept** is that of its test, and nothing else can be read in it. -/
theorem comparison_reads (c : Compiler) (offset bound : Nat) {l : Leaf} {f : Operator.Form}
    (hform : l.form? = some f) (hsupports : c.dialect.Supports f) :
    let t := Leaf.test c.dialect c.aliases (offset + bound + 1) (l, f)
    ∃ text, (c.settings offset).comparison bound (l.comparison c.aliases) = .ok (some text) ∧
      Sql.read (offset + bound) text = some [.test none t] := by
  intro t
  have hlegible : t.Legible := ⟨Column.shown_table_ne _, hsupports.legible⟩
  refine ⟨_, ?_, Sql.read_write_test c.dialect.style hlegible rfl⟩
  have htag : Operator.formOf? (l.comparison c.aliases).operator = some f := hform
  have hdialect : (c.settings offset).dialect = c.dialect := rfl
  rw [comparison_eq_match, htag, hdialect, placeholder_settings, write_test]
  -- every form is written as its test; membership only where the dialect has it
  cases f with
  | symbol sign => rfl
  | membership negate => exact if_pos (hsupports.membership negate rfl)
  | pattern => rfl

end Compiler

end BoundSql
