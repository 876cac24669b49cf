import BoundSql.Clause

/-!
# Clauses as trees

What a clause says, apart from how it is written: tests of columns against numbered parameters,
grouped, with a joiner in front of each term. `Sql.pieces` writes siblings down as pieces, some
verbatim and some placeholders; `Sql.write` turns pieces into text for a placeholder style. The
first of siblings never shows its joiner, so `Sql.settle` drops that joiner everywhere.

* `Sql.tests_append` — the tests of siblings put behind others;
* `Sql.numbers_pieces` — the placeholders of a clause are those of its tests, in order;
* `Sql.write_pieces_eq_empty` — only where there are no siblings is there no text.

Nested lists of terms have `Sql.forest_induction`: one case for no siblings, one for a test in front
and one for a group in front.
-/

namespace BoundSql.Sql

/-- How a column is compared with a parameter. -/
inductive Phrase where
  /-- A sign between column and parameter. -/
  | symbol (sign : String)
  /-- A sign between the parameter and any element of the column. -/
  | membership (sign : String)
  /-- An operator between the column and the parameter with a text on either side. -/
  | pattern (operator before after : String)
deriving DecidableEq

/-- A comparison of a column with the parameter of the given number. -/
structure Test where
  column : Column
  phrase : Phrase
  number : Nat
deriving DecidableEq

/-- A test or a group of siblings, with the joiner in front of it. -/
inductive Term where
  | test (joiner : Option Joiner) (t : Test)
  | group (joiner : Option Joiner) (terms : List Term)

namespace Term

/-- The joiner in front of a term. -/
def joiner : Term → Option Joiner
  | test j _ => j
  | group j _ => j

/-- A term with another joiner in front of it. -/
def withJoiner (j : Option Joiner) : Term → Term
  | test _ t => test j t
  | group _ ts => group j ts

@[simp] theorem joiner_withJoiner (j : Option Joiner) (t : Term) :
    (t.withJoiner j).joiner = j := by
  cases t <;> rfl

end Term

/-- **Induction over siblings.** A property of lists of terms holds if it holds of the empty list
and is handed on by a test in front and by a group in front, from the siblings inside the group and
those behind it. -/
@[elab_as_elim]
theorem forest_induction {motive : List Term → Prop} (nil : motive [])
    (test : ∀ j t ts, motive ts → motive (.test j t :: ts))
    (group : ∀ j inner ts, motive inner → motive ts → motive (.group j inner :: ts)) :
    ∀ ts, motive ts
  | [] => nil
  | .test j t :: ts => test j t ts (forest_induction nil test group ts)
  | .group j inner :: ts =>
    group j inner ts (forest_induction nil test group inner) (forest_induction nil test group ts)

/-! ### The tests of siblings -/

mutual

/-- The tests of a term from left to right. -/
def Term.tests : Term → List Test
  | .test _ t => [t]
  | .group _ ts => tests ts

/-- The tests of siblings from left to right. -/
def tests : List Term → List Test
  | [] => []
  | t :: ts => t.tests ++ tests ts

end

@[simp] theorem tests_test_cons (j : Option Joiner) (t : Test) (ts : List Term) :
    tests (.test j t :: ts) = t :: tests ts := rfl

@[simp] theorem tests_group_cons (j : Option Joiner) (inner ts : List Term) :
    tests (.group j inner :: ts) = tests inner ++ tests ts := rfl

theorem tests_append (a b : List Term) : tests (a ++ b) = tests a ++ tests b := by
  induction a with
  | nil => rfl
  | cons t a ih =>
    show t.tests ++ tests (a ++ b) = t.tests ++ tests a ++ tests b
    rw [ih, List.append_assoc]

/-! ### Writing siblings down -/

/-- A piece of a clause: text, or the placeholder of a parameter. -/
inductive Piece where
  | verbatim (s : String)
  | parameter (number : Nat)

/-- The number of the parameter a piece stands for. -/
def Piece.number? : Piece → Option Nat
  | verbatim _ => none
  | parameter n => some n

/-- The text of a piece. -/
def Piece.text (style : PlaceholderStyle) : Piece → String
  | verbatim s => s
  | parameter n => style.placeholder n

/-- The text of pieces, one behind the other. -/
def write (style : PlaceholderStyle) : List Piece → String
  | [] => ""
  | p :: ps => p.text style ++ write style ps

/-- The numbers of the placeholders among pieces, from left to right. -/
def numbers (ps : List Piece) : List Nat := ps.filterMap Piece.number?

/-- The pieces of a test. -/
def Test.pieces (t : Test) : List Piece :=
  match t.phrase with
  | .symbol sign => [.verbatim (t.column.sql ++ " " ++ sign ++ " "), .parameter t.number]
  | .membership sign =>
    [.parameter t.number, .verbatim (" " ++ sign ++ " ANY(" ++ t.column.sql ++ ")")]
  | .pattern operator before after =>
    [.verbatim (t.column.sql ++ " " ++ operator ++ " " ++ Text.quoteWith '\'' before ++ " || "),
      .parameter t.number, .verbatim (" || " ++ Text.quoteWith '\'' after)]

/-- What stands between a term and the sibling before it. -/
def between : Option Joiner → String
  | some j => " " ++ j.keyword ++ " "
  | none => " "

mutual

/-- The pieces of a term, its joiner left out. -/
def Term.pieces : Term → List Piece
  | .test _ t => t.pieces
  | .group _ ts => .verbatim "( " :: (pieces true ts ++ [.verbatim " )"])

/-- The pieces of siblings; the very first one does not show its joiner. -/
def pieces (first : Bool) : List Term → List Piece
  | [] => []
  | t :: ts =>
    (if first then [] else [.verbatim (between t.joiner)]) ++ (t.pieces ++ pieces false ts)

end

@[simp] theorem pieces_nil (first : Bool) : pieces first [] = [] := rfl

@[simp] theorem pieces_cons (first : Bool) (t : Term) (ts : List Term) :
    pieces first (t :: ts) =
      (if first then [] else [.verbatim (between t.joiner)]) ++ (t.pieces ++ pieces false ts) := rfl

@[simp] theorem Term.pieces_test (j : Option Joiner) (t : Test) :
    (Term.test j t).pieces = t.pieces := rfl

@[simp] theorem Term.pieces_group (j : Option Joiner) (ts : List Term) :
    (Term.group j ts).pieces = .verbatim "( " :: (Sql.pieces true ts ++ [.verbatim " )"]) := rfl

@[simp] theorem write_nil (style : PlaceholderStyle) : write style [] = "" := rfl

@[simp] theorem write_cons (style : PlaceholderStyle) (p : Piece) (ps : List Piece) :
    write style (p :: ps) = p.text style ++ write style ps := rfl

theorem write_append (style : PlaceholderStyle) (ps qs : List Piece) :
    write style (ps ++ qs) = write style ps ++ write style qs := by
  induction ps with
  | nil => simp
  | cons p ps ih => rw [List.cons_append, write_cons, write_cons, ih, String.append_assoc]

theorem write_group (style : PlaceholderStyle) (j : Option Joiner) (ts : List Term) :
    write style (Term.group j ts).pieces = "( " ++ write style (pieces true ts) ++ " )" := by
  rw [Term.pieces_group, write_cons, write_append, ← String.append_assoc]
  rfl

theorem write_test_ne_empty (style : PlaceholderStyle) (t : Test) : write style t.pieces ≠ "" := by
  obtain ⟨column, phrase, number⟩ := t
  intro h
  have hlist := congrArg String.toList h
  cases phrase <;> simp [Test.pieces, Piece.text] at hlist

theorem write_term_ne_empty (style : PlaceholderStyle) (t : Term) : write style t.pieces ≠ "" := by
  cases t with
  | test j t => exact write_test_ne_empty style t
  | group j ts =>
    intro h
    rw [write_group] at h
    have hlist := congrArg String.toList h
    simp at hlist

/-- **Only where there are no siblings is there no text.** -/
theorem write_pieces_eq_empty (style : PlaceholderStyle) (ts : List Term) :
    write style (pieces true ts) = "" ↔ ts = [] := by
  constructor
  · intro h
    cases ts with
    | nil => rfl
    | cons t ts =>
      rw [pieces_cons, if_pos rfl, List.nil_append, write_append] at h
      exact absurd (String.append_eq_empty_iff.mp h).1 (write_term_ne_empty style t)
  · rintro rfl
    rfl

/-! ### Placeholders -/

theorem numbers_append (ps qs : List Piece) : numbers (ps ++ qs) = numbers ps ++ numbers qs :=
  List.filterMap_append

/-- A test is written with one placeholder, that of its parameter. -/
theorem numbers_test (t : Test) : numbers t.pieces = [t.number] := by
  obtain ⟨column, phrase, number⟩ := t
  cases phrase <;> rfl

/-- **The placeholders of a clause** are the parameters of its tests, from left to right. -/
theorem numbers_pieces (first : Bool) (ts : List Term) :
    numbers (pieces first ts) = (tests ts).map Test.number := by
  -- a joiner has no placeholder
  have hlead : ∀ (b : Bool) (t : Term),
      numbers (if b then [] else [.verbatim (between t.joiner)]) = [] := by
    intro b t
    cases b <;> rfl
  induction ts using forest_induction generalizing first with
  | nil => rfl
  | test j t ts ih =>
    rw [pieces_cons, numbers_append, numbers_append, hlead, ih, Term.pieces_test, numbers_test]
    rfl
  | group j inner ts ihInner ih =>
    rw [pieces_cons, numbers_append, numbers_append, hlead, ih, Term.pieces_group,
      tests_group_cons, List.map_append]
    show [] ++ (numbers (pieces true inner ++ [.verbatim " )"]) ++ _) = _
    rw [numbers_append, ihInner]
    simp [numbers, Piece.number?]

end BoundSql.Sql
