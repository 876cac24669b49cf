import BoundSql.Error

/-!
# Values as keys

Which values can be the keys of a mapping or the items of a set, and which of them are the same key.

* `Value.keyFault?` is what keeps a value from being a key: collections that can change, records of
  models that can change, and numbers that signal an error.
* `Value.sameKey` compares keys: texts and numbers by what they are, whatever their type; times by
  the moment they stand for; tuples, sets and records part by part.
* `Value.insertEntry` and `Value.insertItem` keep mappings and sets free of doubles.
-/

namespace BoundSql

namespace Value

/-- Whether the records of a type never change; they can be keys if their fields can. -/
def isFixedRecord (type : String) : Bool :=
  ([Model.leaf, .group, .sort, .selection].map Model.title).contains type

mutual

/-- What keeps a value from being a key, if anything does. -/
def keyFault? : Value → Option Misuse
  | list xs => some (.notAKey (list xs).typeName)
  | set xs => some (.notAKey (set xs).typeName)
  | map entries => some (.notAKey (map entries).typeName)
  | decimal digits => if DecimalText.isSignal digits then some .signalKey else none
  | tuple xs => itemKeyFault? xs
  | record type fields =>
    if isFixedRecord type then fieldKeyFault? fields else some (.notAKey type)
  | _ => none

/-- The first such fault among items. -/
def itemKeyFault? : List Value → Option Misuse
  | [] => none
  | x :: xs => (keyFault? x).or (itemKeyFault? xs)

/-- The first such fault among fields. -/
def fieldKeyFault? : List (String × Value) → Option Misuse
  | [] => none
  | (_, v) :: rest => (keyFault? v).or (fieldKeyFault? rest)

end

/-- Whether two values without parts are the same key. -/
def sameSimpleKey (a b : Value) : Bool :=
  match a.asText?, b.asText? with
  | some s, some t => s == t
  | _, _ => match a.amount?, b.amount? with
    | some m, some n => m.same n
    | _, _ => a == b

mutual

/-- Whether two values are one and the same key. -/
def sameKey : Value → Value → Bool
  | datetime d t, b => match b with
    | datetime d' t' => Clock.sameMoment (d.dayNumber, t) (d'.dayNumber, t')
    | _ => false
  | time t, b => match b with
    | time t' => Clock.sameMoment (0, t) (0, t')
    | _ => false
  | tuple xs, b => match b with
    | tuple ys => sameKeys xs ys
    | _ => false
  | frozenset xs, b => match b with
    | frozenset ys => xs.length == ys.length && keysAmong ys xs
    | _ => false
  | record type fields, b => match b with
    | record type' fields' => type == type' && sameFields fields fields'
    | _ => false
  | a, b => sameSimpleKey a b

/-- Whether items are the same one by one. -/
def sameKeys : List Value → List Value → Bool
  | [], ys => ys.isEmpty
  | x :: xs, ys => match ys with
    | [] => false
    | y :: ys => sameKey x y && sameKeys xs ys

/-- Whether each item is the same as one of the others. -/
def keysAmong (others : List Value) : List Value → Bool
  | [] => true
  | x :: xs => others.any (fun y => sameKey x y) && keysAmong others xs

/-- Whether fields are the same one by one. -/
def sameFields : List (String × Value) → List (String × Value) → Bool
  | [], others => others.isEmpty
  | (name, v) :: rest, others => match others with
    | [] => false
    | (name', v') :: rest' => name == name' && sameKey v v' && sameFields rest rest'

end

/-- Adds an entry to a mapping, in place of an earlier one with the same key. -/
def insertEntry (k v : Value) : Entries → Entries
  | [] => [(k, v)]
  | (k', v') :: rest =>
    if sameKey k k' then (k', v) :: rest else (k', v') :: insertEntry k v rest

/-- The mapping that entries come to when they are added in order. -/
def mapOf (entries : Entries) : Value :=
  map (entries.foldl (fun es e => insertEntry e.1 e.2 es) [])

/-- Adds an item to a set unless it is there already. -/
def insertItem (x : Value) (xs : List Value) : List Value :=
  if xs.any (sameKey x) then xs else xs ++ [x]

/-- The items of a set when they are added in order. -/
def distinct (items : List Value) : List Value := items.foldl (fun xs x => insertItem x xs) []

end Value

end BoundSql
