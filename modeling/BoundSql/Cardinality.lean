import BoundSql.Value.Key

/-!
# Exactly one row

`exactlyOne` takes the only row of a result, or gives the error of the caller together with the
number of rows there were. `rowsOf` are the rows of a value handed over as a result.
-/

namespace BoundSql

/-- A result that does not have exactly one row: the error of the caller and the number of rows. -/
structure NotSingle (ε : Type) where
  error : ε
  count : Nat

/-- The only row. -/
def exactlyOne {α ε : Type} (rows : List α) (error : ε) : Except (NotSingle ε) α :=
  match rows with
  | [row] => .ok row
  | rows => .error ⟨error, rows.length⟩

/-- The only row comes out exactly if it is alone. -/
theorem exactlyOne_eq_ok_iff {α ε : Type} {rows : List α} {error : ε} {row : α} :
    exactlyOne rows error = .ok row ↔ rows = [row] := by
  unfold exactlyOne
  split <;> simp_all

/-- The rows of a value that can be counted. A single row is taken by its position, which sets do
not have and which is looked up as a key in a mapping. -/
def rowsOf : Value → Except Misuse (List Value)
  | .record type _ => .error (.noLength type)
  | .set [x] => .error (.notSubscriptable (Value.set [x]).typeName)
  | .frozenset [x] => .error (.notSubscriptable (Value.frozenset [x]).typeName)
  | .map [(k, v)] => if Value.sameKey k (.int 0) then .ok [v] else .error (.noSuchKey "0")
  | v => match v.items? with
    | some xs => .ok xs
    | none => .error (.noLength v.qualifiedTypeName)

end BoundSql
