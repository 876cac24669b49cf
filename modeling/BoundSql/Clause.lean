import BoundSql.Dialect
import BoundSql.Filter.Token
import BoundSql.Report

/-!
# Rendering clauses

The tokens of a filter are rendered from left to right with one pass and a stack of open groups.
Every scope collects items, a text with the joiner in front of it; when its group closes the items
are joined and put between parentheses into the scope around it. The first item of a scope never
shows its joiner, and a group without items vanishes with its own.

Values are bound in the order of their placeholders, which are numbered from `offset + 1`. A leaf
with an unknown operator is an error for a strict renderer and is dropped with a notice by a lenient
one.
-/

namespace BoundSql

/-- Why a clause cannot be rendered. -/
inductive ClauseError where
  | unsupported (operator dialect : String)
  | unknown (operator field : String)
  | unbalanced
deriving DecidableEq

/-- A clause error as an error of the library. -/
def ClauseError.error : ClauseError → Error
  | unsupported operator store => .build (.unsupportedOperator operator store)
  | unknown operator field =>
    .build (.unknownOperator operator Operator.sortedTags (some field))
  | unbalanced => .misuse .unbalanced

namespace Clause

/-- A rendered text with the joiner that stands in front of it. -/
structure Item where
  joiner : Option Joiner
  text : String

/-- The text of an item that is not the first. -/
def Item.joined (i : Item) : String :=
  match i.joiner with
  | some j => j.keyword ++ " " ++ i.text
  | none => i.text

/-- The items of a scope in order, as one text. -/
def join : List Item → String
  | [] => ""
  | first :: rest => " ".intercalate (first.text :: rest.map Item.joined)

/-- A group that is not closed yet: its joiner, and the items of the scope around it, the latest
first. -/
structure OpenGroup where
  joiner : Option Joiner
  around : List Item

/-- The state of the pass: the items of the innermost scope, the latest first; the open groups
around it; the joiner of a group about to open; the values bound so far. -/
structure State where
  items : List Item
  groups : List OpenGroup
  pending : Option Joiner
  values : List Value

/-- The state before the first token. -/
def State.start : State := ⟨[], [], none, []⟩

/-- What a renderer has to know. -/
structure Settings where
  dialect : Dialect
  strict : Bool
  offset : Int

namespace Settings

/-- The placeholder of the next value when so many are bound already. -/
def placeholder (s : Settings) (bound : Nat) : String :=
  s.dialect.placeholder (s.offset + (bound + 1))

/-- The text of a comparison whose value is the next to be bound; `none` if its operator is unknown
and may be dropped. -/
def comparison (s : Settings) (bound : Nat) (c : Comparison) : Except ClauseError (Option String) :=
  let column := c.column.sql
  let placeholder := s.placeholder bound
  match (Operator.ofTag? c.operator).map Operator.form with
  | some (.membership negate) =>
    if s.dialect.hasMembership then .ok (some (Dialect.membership placeholder column negate))
    else .error (.unsupported c.operator s.dialect.name)
  | some .pattern => .ok (some (s.dialect.patternMatch column placeholder))
  -- A symbol is found under its tag in any case, the other two forms only under the exact tag.
  | _ => match Operator.symbolOf? c.operator with
    | some sign => .ok (some (column ++ " " ++ sign ++ " " ++ placeholder))
    | none => if s.strict then .error (.unknown c.operator c.field) else .ok none

/-- One step of the pass. -/
def step (s : Settings) (st : State) : Token → Report ClauseError State
  | .joiner j => .ok { st with pending := some j }
  | .opening => .ok ⟨[], ⟨st.pending, st.items⟩ :: st.groups, none, st.values⟩
  | .closing =>
    match st.groups with
    | [] => .fail .unbalanced
    | g :: groups =>
      let inner := join st.items.reverse
      -- Nothing inside: the group goes, and its joiner with it.
      let items := if inner.isEmpty then g.around else ⟨g.joiner, "( " ++ inner ++ " )"⟩ :: g.around
      .ok { st with items := items, groups := groups }
  | .comparison c =>
    match s.comparison st.values.length c with
    | .error e => .fail e
    | .ok (some text) =>
      .ok { st with items := ⟨c.joiner, text⟩ :: st.items, values := st.values ++ [c.value] }
    -- Nothing is bound for a dropped leaf, so the numbers of later placeholders have no gap.
    | .ok none => ⟨[.droppedLeaf c.column.sql c.operator], .ok st⟩

/-- All steps of the pass. -/
def run (s : Settings) (st : State) : List Token → Report ClauseError State
  | [] => .ok st
  | t :: ts => (s.step st t).bind fun st => s.run st ts

/-- The text of a clause and its values. -/
def render (s : Settings) (ts : List Token) : Report ClauseError (String × List Value) :=
  (s.run .start ts).map fun st => (join st.items.reverse, st.values)

end Settings

end Clause

end BoundSql
