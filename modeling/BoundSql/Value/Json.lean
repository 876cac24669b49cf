import BoundSql.Report

/-!
# The JSON text of a value

`Value.json` writes a structure as JSON text: items divided by a comma and a space, keys and values
by a colon and a space, all characters outside printable ASCII escaped. Texts, numbers, truth values
and nothing have JSON forms of their own; a set is the list of its items in the order of their plain
texts; any other value is written as its plain text. The keys of a mapping must be texts, numbers,
truth values or nothing; any other key is a misuse.
-/

namespace BoundSql

open Text

namespace Json

/-- A UTF-16 unit as an escape. -/
def unitEscape (n : Nat) : List Char := '\\' :: 'u' :: hexDigits 4 n

/-- A character inside a JSON string. -/
def escapeChar (c : Char) : List Char :=
  if c = '"' then ['\\', '"']
  else if c = '\\' then ['\\', '\\']
  else if c = '\n' then ['\\', 'n']
  else if c = '\r' then ['\\', 'r']
  else if c = '\t' then ['\\', 't']
  else if c = Char.ofNat 12 then ['\\', 'f']
  else if c = Char.ofNat 8 then ['\\', 'b']
  else if 32 ≤ c.toNat ∧ c.toNat < 127 then [c]
  else if c.toNat < 0x10000 then unitEscape c.toNat
  else
    let n := c.toNat - 0x10000
    unitEscape (0xd800 + n / 0x400) ++ unitEscape (0xdc00 + n % 0x400)

/-- A JSON string. -/
def string (s : String) : String :=
  String.ofList ('"' :: (s.toList.flatMap escapeChar ++ ['"']))

/-- A JSON array of texts already written. -/
def array (items : List String) : String := "[" ++ ", ".intercalate items ++ "]"

/-- A JSON object of members already written. -/
def object (members : List String) : String := "\x7b" ++ ", ".intercalate members ++ "\x7d"

/-- A member of a JSON object. -/
def entry (key value : String) : String := string key ++ ": " ++ value

/-- The text a key is turned to, if it may be one. -/
def keyText? : Value → Option String
  | .text s => some s
  | .member _ .text _ (.text s) => some s
  | .float f => some f.json
  | .bool b => some (if b then "true" else "false")
  | .null => some "null"
  | .int n => some (toString n)
  | .member _ .integer _ (.int n) => some (toString n)
  | _ => none

/-- Whether the first of two texts may stand before the second. -/
def textBefore (a b : String) : Bool := !(b < a)

/-- The written items of a set in the order of the plain texts of the items. -/
def sortedItems (texts : List String) (items : List String) : List String :=
  ((texts.zip items).mergeSort fun a b => textBefore a.1 b.1).map (·.2)

end Json

namespace Value

mutual

/-- The JSON text of a value. -/
def json : Value → Except Misuse String
  | null => .ok "null"
  | bool b => .ok (if b then "true" else "false")
  | int n => .ok (toString n)
  | float f => .ok f.json
  | text s => .ok (Json.string s)
  | member _ .text _ (text s) => .ok (Json.string s)
  | member _ .integer _ (int n) => .ok (toString n)
  | list xs | tuple xs => (jsonItems xs).map Json.array
  | set xs | frozenset xs =>
    (jsonItems xs).map fun items => Json.array (Json.sortedItems (xs.map plainText) items)
  | map entries => (jsonMembers entries).map Json.object
  | v => .ok (Json.string v.plainText)

/-- The JSON texts of items. -/
def jsonItems : List Value → Except Misuse (List String)
  | [] => .ok []
  | x :: xs => match json x with
    | .error e => .error e
    | .ok s => (jsonItems xs).map (s :: ·)

/-- The members that the entries of a mapping become. -/
def jsonMembers : Entries → Except Misuse (List String)
  | [] => .ok []
  | (k, v) :: rest => match Json.keyText? k with
    | none => .error (.keyNotEncodable k.qualifiedTypeName)
    | some key => match json v with
      | .error e => .error e
      | .ok s => (jsonMembers rest).map (Json.entry key s :: ·)

end

end Value

end BoundSql
