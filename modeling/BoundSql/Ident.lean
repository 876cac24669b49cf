import BoundSql.Text.Quoted
import BoundSql.Text.Split

/-!
# Identifiers

`snakeCase` turns a name in any spelling into lower case words joined by underscores: a word ends
where a lower case letter or digit meets an upper case one, before the last of several upper case
letters when a lower case one follows, and at every character that is no ASCII letter or digit.
`quote` makes an SQL identifier of any text.
-/

namespace BoundSql.Ident

open Text

/-- Whether a word ends between `a` and `b`, where `rest` follows `b`. -/
def breaksBetween (a b : Char) (rest : List Char) : Bool :=
  b.isUpper && (a.isLower || a.isDigit || (a.isUpper && (rest.head?.map Char.isLower).getD false))

/-- A name with a space wherever a word ends inside letters and digits. -/
def spaced : List Char → List Char
  | [] => []
  | [a] => [a]
  | a :: b :: rest =>
    if breaksBetween a b rest then a :: ' ' :: spaced (b :: rest) else a :: spaced (b :: rest)

/-- The words of a name. -/
def words (name : List Char) : List (List Char) :=
  (splitBy (fun c => !c.isAlphanum) (spaced name)).filter (!·.isEmpty)

/-- The words of a name in lower case, joined by underscores. -/
def snakeChars (name : List Char) : List Char :=
  ['_'].intercalate ((words name).map (·.map Char.toLower))

/-- The column name that a name in any spelling stands for. -/
def snakeCase (name : String) : String := String.ofList (snakeChars name.toList)

/-- A name as an SQL identifier. -/
def quote (name : String) : String := quoteWith '"' name

/-- Different names are different identifiers. -/
theorem quote_injective : Function.Injective quote := by
  intro a b h
  have hchars := congrArg String.toList h
  rw [quote, quote, toList_quoteWith, toList_quoteWith] at hchars
  have hdouble := List.append_cancel_right (List.cons.inj hchars).2
  exact String.toList_inj.mp (double_injective '"' hdouble)

end BoundSql.Ident
