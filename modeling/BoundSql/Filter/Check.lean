import BoundSql.Filter.Record
import BoundSql.Text.Utf8

/-!
# Checking data against the models

Raw data is checked against a model field by field, and every issue is reported: first those of the
fields in the order of the model, then the keys that are no field of it. A field with two spellings
is read from the spelling with capitals if that is there, and then the other one counts as an
unknown key.

* `Leaf.check`, `Node.checkGroup`, `SortKey.check`, `Selection.check` check one value each;
* `Node.check` tries a value as a leaf and then as a group; if it is neither, the issues of both
  are reported;
* a record of the very model fits as it is.
-/

namespace BoundSql

/-- A value, or all the issues that were found. -/
inductive Checked (α : Type) where
  | ok (a : α)
  | issues (found : List Issue)

namespace Checked

variable {α β γ : Type}

/-- One issue. -/
def fault (f : Fault) (place : List Step) : Checked α := issues [⟨f, place⟩]

/-- Changes the value. -/
def map (f : α → β) : Checked α → Checked β
  | ok a => ok (f a)
  | issues found => issues found

/-- Puts two outcomes together; the issues of the first come first. -/
def zipWith (f : α → β → γ) : Checked α → Checked β → Checked γ
  | ok a, ok b => ok (f a b)
  | ok _, issues found => issues found
  | issues found, ok _ => issues found
  | issues found, issues more => issues (found ++ more)

/-- Moves all issues below a step. -/
def below (s : Step) : Checked α → Checked α
  | ok a => ok a
  | issues found => issues (found.map fun i => { i with place := s :: i.place })

/-- The outcome for a model. -/
def toExcept (m : Model) : Checked α → Except Invalid α
  | ok a => .ok a
  | issues found => .error ⟨m, found⟩

end Checked

/-! ### Single values -/

namespace Check

open Text

/-- A text, or bytes that encode one; any other member counts as the text of its value. -/
def text (v : Value) : Checked String :=
  match v with
  | .bytes bs => match utf8Text? bs with
    | some s => .ok s
    | none => .fault .notUnicode []
  | .member _ .plain _ value => .ok value.plainText
  | .member _ .integer _ value => .ok value.plainText
  | v => match v.asText? with
    | some s => .ok s
    | none => .fault .notText []

/-- A text that is not empty. -/
def name (v : Value) : Checked String :=
  match text v with
  | .ok s => if s.isEmpty then .fault .tooShort [] else .ok s
  | .issues found => .issues found

/-- The tag of an operator: texts are turned to tags, other values must be texts in disguise. -/
def operatorTag (v : Value) : Checked String :=
  if v.asText?.isSome then .ok (Operator.tagOf v) else text v

/-- The keyword a value spells: a text in upper case, or what else counts as a text as it is. -/
def keyword? (v : Value) : Option String :=
  match v.asText? with
  | some s => some (upperLatin s)
  | none => match text v with
    | .ok s => some s
    | .issues _ => none

/-- A joiner, or nothing for none. -/
def joiner (v : Value) : Checked (Option Joiner) :=
  match v with
  | .null => .ok none
  | v => match (keyword? v).bind Joiner.ofKeyword? with
    | some j => .ok (some j)
    | none => .fault .notJoiner []

/-- A direction. -/
def direction (v : Value) : Checked Direction :=
  match (keyword? v).bind Direction.ofKeyword? with
  | some d => .ok d
  | none => .fault .notDirection []

/-- The whole number that a number of another kind amounts to. -/
def integerOfAmount : Amount → Checked Int
  | .finite x => match x.integer? with
    | some n => .ok n
    | none => .fault .integerFractional []
  | _ => .fault .notFinite []

/-- The whole number a floating point number is; those of sixty-four bits or more are too large. -/
def integerOfFloat (f : FloatText) : Checked Int :=
  match integerOfAmount f.amount with
  | .ok n => if n.natAbs < Nat.pow 2 63 then .ok n else .fault .integerTooLarge []
  | .issues found => .issues found

/-- The whole number a text spells. -/
def integerOfText (s : String) : Checked Int :=
  match readTyped s with
  | .number n => .ok n
  | .unreadable => .fault .integerUnreadable []
  | .tooLong => .fault .integerTooLarge []

/-- A whole number in any of the forms it may have, as a value. Most forms are turned to a plain
number; a plain member counts as its own value, which must be a number already. -/
def integer (v : Value) : Checked Value :=
  match v with
  | .float f => (integerOfFloat f).map .int
  | .decimal digits => (integerOfAmount (DecimalText.amount digits)).map .int
  | .bytes bs => match utf8Text? bs with
    | some s => (integerOfText s).map .int
    | none => .fault .integerUnreadable []
  | .member _ .plain _ value =>
    if value.asInt?.isSome then .ok value else .fault .integerTooLarge []
  | v => match v.asInt?, v.asText? with
    | some n, _ => .ok (.int n)
    | none, some s => (integerOfText s).map .int
    | none, none => .fault .notInteger []

/-- A whole number that is not negative, or nothing. -/
def count (v : Value) : Checked (Option Count) :=
  match v with
  | .null => .ok none
  | v => match integer v with
    | .ok n => match Count.ofValue? n with
      | some c => .ok (some c)
      | none => .fault .negative []
    | .issues found => .issues found

/-- A text, or nothing. -/
def optionalText (v : Value) : Checked (Option String) :=
  match v with
  | .null => .ok none
  | v => (text v).map some

/-! ### Fields and keys -/

/-- A field that has to be there. -/
def required {α : Type} (key : String) (check : Value → Checked α) (es : Entries) : Checked α :=
  match Value.lookup key es with
  | some v => (check v).below (.key key)
  | none => .fault .missing [.key key]

/-- A field that may be missing. -/
def allowed {α : Type} (key : String) (check : Value → Checked α) (default : α) (es : Entries) :
    Checked α :=
  match Value.lookup key es with
  | some v => (check v).below (.key key)
  | none => .ok default

/-- The spelling that a field with two spellings is read from. -/
def spelling (preferred other : String) (es : Entries) : String :=
  if (Value.lookup preferred es).isSome then preferred else other

/-- The step that names a key: a text, a small number, or what the key looks like. -/
def keyStep (k : Value) : Step :=
  match k.asInt? with
  | some n => if -(Nat.pow 2 63 : Int) ≤ n ∧ n < Nat.pow 2 63 then .index n else .key k.literal
  | none => .key k.literal

/-- The issues of the keys that are no field: `known` are the keys that were read. -/
def unknownKeys (known : List String) : Entries → List Issue
  | [] => []
  | (k, _) :: rest =>
    let here := match k.asText? with
      | some s => if known.contains s then [] else [⟨.extraForbidden, [.key s]⟩]
      | none => [⟨.invalidKey, [keyStep k]⟩]
    here ++ unknownKeys known rest

/-- The outcome of the fields with the unknown keys looked for as well. -/
def closed {α : Type} (known : List String) (es : Entries) (c : Checked α) : Checked α :=
  match unknownKeys known es with
  | [] => c
  | found => match c with
    | .ok _ => .issues found
    | .issues first => .issues (first ++ found)

/-- The joiner of a node. -/
def joinerField (es : Entries) : Checked (Option Joiner) :=
  allowed (spelling "conditionType" "condition_type" es) joiner none es

end Check

open Check

/-! ### Leaves and groups -/

/-- Checks the entries of a mapping as a leaf. -/
def Leaf.check (es : Entries) : Checked Leaf :=
  let field := required "field" name es
  let operator := required "operator" operatorTag es
  let value : Checked Value := allowed "value" .ok .null es
  closed ["field", "operator", "value", spelling "conditionType" "condition_type" es] es <|
    (((field.zipWith Leaf.mk operator).zipWith (· ·) value).zipWith (· ·) (joinerField es))

namespace Node

/-- Checks the entries of a mapping as a group, the outcome of its children being given; `none` if
there are no children to be found. -/
def checkGroup (children : Option (Checked (List Node))) (es : Entries) : Checked Node :=
  let children := match children with
    | some c => c.below (.key "expressions")
    | none => .fault .missing [.key "expressions"]
  closed ["expressions", spelling "conditionType" "condition_type" es] es <|
    children.zipWith group (joinerField es)

/-- The outcome of a leaf, or else of a group, or else the issues of both. -/
def either (leaf : Checked Leaf) (group : Checked Node) : Checked Node :=
  match leaf with
  | .ok l => .ok (.leaf l)
  | .issues a => match group with
    | .ok g => .ok g
    | .issues b =>
      (Checked.zipWith (fun (n : Node) (_ : Node) => n)
        ((Checked.issues a).below (.key Model.leaf.title))
        ((Checked.issues b).below (.key Model.group.title)))

/-- The issues of a value that is no mapping. -/
def neither : Checked Node :=
  .issues [⟨.notModel .leaf, [.key Model.leaf.title]⟩, ⟨.notModel .group, [.key Model.group.title]⟩]

mutual

/-- Checks a value as a node. -/
def check : Value → Checked Node
  | .map es => either (Leaf.check es) (checkGroup (checkChildren es) es)
  | v => match ofValue? v with
    | some n => .ok n
    | none => neither

/-- Checks the children among the entries of a mapping. -/
def checkChildren : Entries → Option (Checked (List Node))
  | [] => none
  | (k, v) :: rest => if k.isKey "expressions" then some (checkList v) else checkChildren rest

/-- Checks a value as a list of nodes. -/
def checkList : Value → Checked (List Node)
  | .list xs | .tuple xs | .set xs | .frozenset xs => checkAll 0 xs
  | _ => .fault .notList []

/-- Checks items as nodes, the first of them at the given position. -/
def checkAll (index : Nat) : List Value → Checked (List Node)
  | [] => .ok []
  | x :: xs => ((check x).below (.index index)).zipWith (· :: ·) (checkAll (index + 1) xs)

end

/-- Checks a value as a leaf. -/
def checkLeafValue (v : Value) : Checked Node :=
  match v with
  | .map es => (Leaf.check es).map .leaf
  | v => match ofValue? v with
    | some (.leaf l) => .ok (.leaf l)
    | _ => .fault (.notModel .leaf) []

/-- Checks a value as a group. -/
def checkGroupValue (v : Value) : Checked Node :=
  match v with
  | .map es => checkGroup (checkChildren es) es
  | v => match ofValue? v with
    | some (.group children j) => .ok (.group children j)
    | _ => .fault (.notModel .group) []

end Node

/-! ### Sorts and selections -/

/-- Checks a value as a sort. -/
def SortKey.check (v : Value) : Checked SortKey :=
  match v with
  | .map es =>
    closed ["key", "order"] es <|
      (required "key" name es).zipWith SortKey.mk (allowed "order" Check.direction .ascending es)
  | v => match SortKey.ofValue? v with
    | some s => .ok s
    | none => .fault (.notModel .sort) []

namespace Selection

/-- A sort, or nothing. -/
def optionalSort (v : Value) : Checked (Option SortKey) :=
  match v with
  | .null => .ok none
  | v => (SortKey.check v).map some

/-- A list of nodes, or nothing. -/
def optionalNodes (v : Value) : Checked (Option (List Node)) :=
  match v with
  | .null => .ok none
  | v => (Node.checkList v).map some

/-- Checks the entries of a mapping as a selection, the outcome of its filter being given. -/
def checkWith (filters : Checked (Option (List Node))) (es : Entries) : Checked Selection :=
  let textKey := spelling "freeText" "free_text" es
  closed ["filters", "sort", "limit", "offset", textKey] es <|
    ((((filters.zipWith Selection.mk (allowed "sort" optionalSort none es)).zipWith (· ·)
      (allowed "limit" count none es)).zipWith (· ·)
      (allowed "offset" count none es)).zipWith (· ·)
      (allowed textKey optionalText none es))

/-- Checks a value as a selection. -/
def check (v : Value) : Checked Selection :=
  match v with
  | .map es => checkWith (allowed "filters" optionalNodes none es) es
  | v => match ofValue? v with
    | some s => .ok s
    | none => .fault (.notModel .selection) []

end Selection

end BoundSql
