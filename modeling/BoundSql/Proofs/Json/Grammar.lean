import BoundSql.Proofs.Json.Number
import BoundSql.Proofs.Json.Strings

/-!
# The grammar of JSON

A JSON text is a value with gaps around it. A value is a word (`null`, a truth value or a number), a
string, an array of values or an object of values under keys. Gaps of blanks may stand around every
value, every key and every sign, and nowhere else.

The grammar says what a text stands for as well. An array is a list, and an object a mapping that
has the members of the object in their order.

* `Listed` — items with commas between them up to a closing bracket;
* `Denotes` — the values of the grammar and what they stand for;
* `IsDocument` — JSON texts.
-/

namespace BoundSql.Json

/-! ### Gaps -/

/-- The blanks that may stand in a gap. -/
def isGapChar (c : Char) : Bool := [' ', '\t', '\n', '\r'].contains c

/-- A gap: blanks that stand for nothing. -/
def IsGap (cs : List Char) : Prop := ∀ c ∈ cs, isGapChar c = true

theorem isGap_nil : IsGap [] := List.forall_mem_nil _

theorem isGap_blank : IsGap [' '] := List.forall_mem_singleton.mpr rfl

/-! ### Items between brackets -/

section Listed

variable (close : Char)

/-- Items, at least one, with commas between them, a closing bracket behind the last and gaps around
each. -/
inductive Joined : List (List Char) → List Char → Prop where
  | last {gap item gap' : List Char} (h : IsGap gap) (h' : IsGap gap') :
    Joined [item] (gap ++ (item ++ (gap' ++ [close])))
  | more {gap item gap' : List Char} (h : IsGap gap) (h' : IsGap gap') {items : List (List Char)}
      {cs : List Char} (hs : Joined items cs) :
    Joined (item :: items) (gap ++ (item ++ (gap' ++ ',' :: cs)))

/-- **Items up to a closing bracket.** There may be none of them. -/
inductive Listed : List (List Char) → List Char → Prop where
  | none {gap : List Char} (h : IsGap gap) : Listed [] (gap ++ [close])
  | some {items : List (List Char)} {cs : List Char} (h : Joined close items cs) : Listed items cs

end Listed

/-! ### Values -/

/-- A word and what it stands for. -/
inductive IsWord : List Char → Value → Prop where
  | null : IsWord ['n', 'u', 'l', 'l'] .null
  | yes : IsWord ['t', 'r', 'u', 'e'] (.bool true)
  | no : IsWord ['f', 'a', 'l', 's', 'e'] (.bool false)
  | number {cs : List Char} {n : Text.Numeral} (h : IsNumber cs n) : IsWord cs (numberValue n)

/-- A member of an object: its key as it is written and as it is meant, the gaps around the colon,
and its value as it is written and as it is meant. -/
structure Member where
  quoted : List Char
  key : String
  before : List Char
  after : List Char
  chars : List Char
  value : Value

namespace Member

/-- The key of a member is a string, and around the colon there are gaps. -/
structure IsKeyed (m : Member) : Prop where
  key : IsString m.quoted m.key
  before : IsGap m.before
  after : IsGap m.after

/-- The characters of a member. -/
def text (m : Member) : List Char := m.quoted ++ (m.before ++ ':' :: (m.after ++ m.chars))

/-- The entry that a member stands for. -/
def entry (m : Member) : Value × Value := (.text m.key, m.value)

end Member

/-- **The characters of a value** and what they stand for. -/
inductive Denotes : List Char → Value → Prop where
  | word {cs : List Char} {v : Value} (h : IsWord cs v) : Denotes cs v
  | string {cs : List Char} {s : String} (h : IsString cs s) : Denotes cs (.text s)
  | array {items : List (List Char × Value)} (h : ∀ i ∈ items, Denotes i.1 i.2) {cs : List Char}
      (listed : Listed ']' (items.map (·.1)) cs) : Denotes ('[' :: cs) (.list (items.map (·.2)))
  | object {members : List Member} (hkeys : ∀ m ∈ members, m.IsKeyed)
      (h : ∀ m ∈ members, Denotes m.chars m.value) {cs : List Char}
      (listed : Listed '\x7d' (members.map Member.text) cs) :
    Denotes ('\x7b' :: cs) (.map (members.map Member.entry))

/-- **A JSON text**: a value with gaps around it. -/
inductive IsDocument (s : String) (v : Value) : Prop where
  | mk {gap cs gap' : List Char} (h : Denotes cs v) (hgap : IsGap gap) (hgap' : IsGap gap')
      (hs : s.toList = gap ++ (cs ++ gap'))

/-- A text that is JSON, whatever it stands for. -/
def IsJsonText (s : String) : Prop := ∃ v, IsDocument s v

end BoundSql.Json
