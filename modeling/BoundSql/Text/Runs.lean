/-!
# Sets of code points as runs

A set of natural numbers is written down as the ascending list of points at which membership
changes: the numbers from the first point up to the second are in, those from the second up to the
third are out, and so on. `insideRuns` reads such a list.
-/

namespace BoundSql.Text

/-- Whether `n` is in the set whose membership changes exactly at the given ascending points. -/
def insideRuns : List Nat → Nat → Bool
  | [], _ => false
  | p :: ps, n => if p ≤ n then !insideRuns ps n else false

end BoundSql.Text
