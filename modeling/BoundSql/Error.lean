import BoundSql.Text.Hex
import BoundSql.Text.Similar
import BoundSql.Text.Typed
import BoundSql.Value.Literal

/-!
# Errors

Three kinds of error can come out of the library, all kept as causes; the wording is in one function
per kind.

* `BuildError`: what cannot be rendered (malformed nodes, unknown or unsupported operators, writes
  without a filter, rows that do not fit, stores and styles not supported). Each has a code, a place
  in a hierarchy of classes and details for a caller's answer.
* `Misuse`: arguments of a type the operation is not made for.
* `Invalid`: data that does not fit a model, with every issue found and where.
-/

namespace BoundSql

/-! ### What cannot be built -/

/-- The classes of build errors; every class but `build` has a wider one. -/
inductive ErrorClass where
  | build
  | filter
  | malformedFilter
  | unknownOperator
  | unsupportedOperator
  | unfilteredWrite
  | insertShape
  | duplicateColumn
  | dialect
  | unsupportedDialect
  | unsupportedParamstyle
  | connectivity
deriving DecidableEq

/-- The next wider class. -/
def ErrorClass.wider : ErrorClass → Option ErrorClass
  | .build => none
  | .filter | .insertShape | .duplicateColumn | .dialect | .connectivity => some .build
  | .malformedFilter | .unknownOperator | .unsupportedOperator | .unfilteredWrite => some .filter
  | .unsupportedDialect | .unsupportedParamstyle => some .dialect

/-- The name a class has in answers. -/
def ErrorClass.name : ErrorClass → String
  | .build => "SQLBuilderError"
  | .filter => "FilterError"
  | .malformedFilter => "MalformedFilterError"
  | .unknownOperator => "UnknownOperatorError"
  | .unsupportedOperator => "UnsupportedOperatorError"
  | .unfilteredWrite => "UnfilteredWriteError"
  | .insertShape => "InsertShapeError"
  | .duplicateColumn => "DuplicateColumnError"
  | .dialect => "DialectError"
  | .unsupportedDialect => "UnsupportedDialectError"
  | .unsupportedParamstyle => "UnsupportedParamstyleError"
  | .connectivity => "ConnectivityError"

/-- A class and all wider ones, itself first. -/
def ErrorClass.ancestry (c : ErrorClass) : List ErrorClass :=
  match c.wider with
  | none => [c]
  | some w => match w.wider with
    | none => [c, w]
    | some top => [c, w, top]

/-- A key of a row: its text, and the form it has in messages. -/
structure RowKey where
  text : String
  shown : String
deriving DecidableEq

/-- The row key that a value is. -/
def RowKey.ofValue (v : Value) : RowKey := ⟨v.asText?.getD v.plainText, v.literal⟩

/-- Why something cannot be built. -/
inductive BuildError where
  | general (text : String)
  | filter (text : String)
  | dialect (text : String)
  | connectivity (text : String)
  | malformedFilter (text : String) (path : Option String)
  | unknownOperator (operator : String) (valid : List String) (field : Option String)
  | unsupportedOperator (operator dialect : String)
  | unfilteredWrite (statement table : String)
  | insertShape (row : Int) (columns : List String)
  | duplicateColumn (column : String) (keys : List RowKey)
  | unsupportedDialect (name : String) (supported : List String)
  | unsupportedParamstyle (name : String)
deriving DecidableEq

namespace BuildError

/-- The class of an error. -/
def errorClass : BuildError → ErrorClass
  | general _ => .build
  | filter _ => .filter
  | dialect _ => .dialect
  | connectivity _ => .connectivity
  | malformedFilter _ _ => .malformedFilter
  | unknownOperator _ _ _ => .unknownOperator
  | unsupportedOperator _ _ => .unsupportedOperator
  | unfilteredWrite _ _ => .unfilteredWrite
  | insertShape _ _ => .insertShape
  | duplicateColumn _ _ => .duplicateColumn
  | unsupportedDialect _ _ => .unsupportedDialect
  | unsupportedParamstyle _ => .unsupportedParamstyle

/-- Names divided by commas. -/
def commaList (names : List String) : String := ", ".intercalate names

/-- Names in ascending order. -/
def sorted (names : List String) : List String := names.mergeSort fun a b => !(b < a)

/-- A text that may be missing or empty, between two others. -/
private def between (before : String) (text : Option String) (after : String) : String :=
  match text with
  | some s => if s.isEmpty then "" else before ++ s ++ after
  | none => ""

/-- The valid operators that an unknown one was perhaps meant to be. -/
def suggestions (operator : String) (valid : List String) : List String :=
  Text.closeMatches operator valid

/-- The wording that loose arguments make: the plain text of one, the literal of all of several. -/
def wording : List Value → String
  | [] => ""
  | [v] => v.plainText
  | vs => (Value.tuple vs).literal

/-- The wording of an error. -/
def message : BuildError → String
  | general text | filter text | dialect text | connectivity text => text
  | malformedFilter text path => between "" path ": " ++ text
  | unknownOperator operator valid field =>
    let meant := suggestions operator valid
    "Unknown operator: '" ++ operator ++ "'" ++ between " on field '" field "'" ++ "." ++
      (if meant.isEmpty then "" else " Did you mean: " ++ commaList meant ++ "?") ++
      " Valid operators: " ++ commaList (sorted valid)
  | unsupportedOperator operator store =>
    "Operator '" ++ operator ++ "' is not supported by dialect '" ++ store ++ "'"
  | unfilteredWrite statement table =>
    "Refusing " ++ statement ++ " on '" ++ table ++
      "' without a filter; pass allow_all=True to affect every row"
  | insertShape row columns =>
    "Row " ++ toString row ++ " is missing column(s): " ++ commaList columns
  | duplicateColumn column keys =>
    "Keys " ++ commaList (keys.map RowKey.shown) ++ " all map to column '" ++ column ++ "'"
  | unsupportedDialect name supported =>
    "Unsupported dialect '" ++ name ++ "'. Supported: " ++ commaList (sorted supported)
  | unsupportedParamstyle name => "Unsupported paramstyle '" ++ name ++ "'"

/-- A detail of an error in a caller's answer. -/
inductive Detail where
  | null
  | text (s : String)
  | texts (ss : List String)
  | number (n : Int)

/-- A text that may be missing. -/
private def Detail.optional : Option String → Detail
  | some s => .text s
  | none => .null

/-- The details of an error for a caller's answer; errors without a code of their own give the name
of their class and the wording. -/
def details (e : BuildError) : List (String × Detail) :=
  match e with
  | malformedFilter text path =>
    [("error", .text "MALFORMED_FILTER"), ("message", .text text), ("path", .optional path)]
  | unknownOperator operator valid field =>
    [("error", .text "OPERATOR_NOT_FOUND"), ("operator", .text operator),
      ("field", .optional field), ("suggestions", .texts (suggestions operator valid)),
      ("valid_operators", .texts (sorted valid))]
  | unsupportedOperator operator store =>
    [("error", .text "OPERATOR_NOT_SUPPORTED"), ("operator", .text operator),
      ("dialect", .text store)]
  | unfilteredWrite statement table =>
    [("error", .text "UNFILTERED_WRITE"), ("statement", .text statement), ("table", .text table)]
  | insertShape row columns =>
    [("error", .text "INSERT_SHAPE_MISMATCH"), ("row_index", .number row),
      ("columns", .texts columns)]
  | duplicateColumn column keys =>
    [("error", .text "DUPLICATE_COLUMN"), ("column", .text column),
      ("keys", .texts (keys.map RowKey.text))]
  | _ => [("error", .text e.errorClass.name), ("message", .text e.message)]

end BuildError

/-! ### Arguments of the wrong type -/

/-- An argument the operation is not made for. -/
inductive Misuse where
  | negativeOffset (offset : Int)
  | notIterable (type : String)
  | keyNotEncodable (type : String)
  | noEntries (type : String)
  | noLength (type : String)
  | keyNotText (type : String)
  | keyBytes
  | notAPair (index : Nat)
  | pairLength (index length : Nat)
  | notAKey (type : String)
  | signalKey
  | notAnObjectKey (type : String)
  | notDumpable (type : String)
  | tooDeep
  | notUtf8 (first position length : Nat)
  | noSuchKey (key : String)
  | notSubscriptable (type : String)
  | numberTooLong (digits : Option Nat)
  | noFirstRow
  | noFirstColumn
  | unbalanced
deriving DecidableEq

/-- The wording of a misuse. -/
def Misuse.message : Misuse → String
  | negativeOffset offset => "value_offset must be non-negative, got " ++ toString offset
  | notIterable type => "'" ++ type ++ "' object is not iterable"
  | keyNotEncodable type => "keys must be str, int, float, bool or None, not " ++ type
  | noEntries type => "'" ++ type ++ "' object has no attribute 'items'"
  | noLength type => "object of type '" ++ type ++ "' has no len()"
  | keyNotText type => "expected string or bytes-like object, got '" ++ type ++ "'"
  | keyBytes => "cannot use a string pattern on a bytes-like object"
  | notAPair index =>
    "cannot convert dictionary update sequence element #" ++ toString index ++ " to a sequence"
  | pairLength index length =>
    "dictionary update sequence element #" ++ toString index ++ " has length " ++
      toString length ++ "; 2 is required"
  | notAKey type => "unhashable type: '" ++ type ++ "'"
  | signalKey => "Cannot hash a signaling NaN value"
  | notAnObjectKey type => "`" ++ type ++ "` not valid as object key"
  | notDumpable type => "Unable to serialize unknown type: " ++ type
  | tooDeep => "Maximum serialization depth exceeded"
  | notUtf8 first position length =>
    "'utf-8' codec can't decode " ++
      (if length = 1 then
        "byte 0x" ++ String.ofList (Text.hexDigits 2 first) ++ " in position " ++ toString position
      else
        "bytes in position " ++ toString position ++ "-" ++ toString (position + length - 1)) ++
      ": invalid utf-8"
  | noSuchKey key => key
  | notSubscriptable type => "'" ++ type ++ "' object is not subscriptable"
  | numberTooLong digits =>
    "Exceeds the limit (" ++ toString Text.digitLimit ++
      " digits) for integer string conversion" ++
      (match digits with
        | some n => ": value has " ++ toString n ++ " digits"
        | none => "") ++
      "; use sys.set_int_max_str_digits() to increase the limit"
  | noFirstRow => "list index out of range"
  | noFirstColumn => "coroutine raised StopIteration"
  | unbalanced => "pop from empty list"

/-! ### Data that does not fit a model -/

/-- The models data is checked against. -/
inductive Model where
  | leaf
  | group
  | sort
  | selection
deriving DecidableEq

/-- The name of a model in answers. -/
def Model.title : Model → String
  | leaf => "FilterLeaf"
  | group => "FilterGroup"
  | sort => "SortSpec"
  | selection => "BulkFilter"

/-- A step into data: the key of an entry or the position of an item. -/
inductive Step where
  | key (name : String)
  | index (n : Int)
deriving DecidableEq

/-- What is wrong at a place of the data. -/
inductive Fault where
  | missing
  | extraForbidden
  | invalidKey
  | notText
  | notUnicode
  | tooShort
  | notJoiner
  | notDirection
  | notList
  | notModel (m : Model)
  | notInteger
  | integerUnreadable
  | integerFractional
  | integerTooLarge
  | notFinite
  | negative
deriving DecidableEq

/-- The code of a fault. -/
def Fault.code : Fault → String
  | missing => "missing"
  | extraForbidden => "extra_forbidden"
  | invalidKey => "invalid_key"
  | notText => "string_type"
  | notUnicode => "string_unicode"
  | tooShort => "string_too_short"
  | notJoiner | notDirection => "enum"
  | notList => "list_type"
  | notModel _ => "model_type"
  | notInteger => "int_type"
  | integerUnreadable => "int_parsing"
  | integerFractional => "int_from_float"
  | integerTooLarge => "int_parsing_size"
  | notFinite => "finite_number"
  | negative => "greater_than_equal"

/-- The wording of a fault. -/
def Fault.message : Fault → String
  | missing => "Field required"
  | extraForbidden => "Extra inputs are not permitted"
  | invalidKey => "Keys should be strings"
  | notText => "Input should be a valid string"
  | notUnicode =>
    "Input should be a valid string, unable to parse raw data as a unicode string"
  | tooShort => "String should have at least 1 character"
  | notJoiner => "Input should be 'AND' or 'OR'"
  | notDirection => "Input should be 'ASC' or 'DESC'"
  | notList => "Input should be a valid list"
  | notModel m => "Input should be a valid dictionary or instance of " ++ m.title
  | notInteger => "Input should be a valid integer"
  | integerUnreadable => "Input should be a valid integer, unable to parse string as an integer"
  | integerFractional => "Input should be a valid integer, got a number with a fractional part"
  | integerTooLarge => "Unable to parse input string as an integer, exceeded maximum size"
  | notFinite => "Input should be a finite number"
  | negative => "Input should be greater than or equal to 0"

/-- A fault and the steps that lead to it. -/
structure Issue where
  fault : Fault
  place : List Step
deriving DecidableEq

/-- Data that does not fit a model: the model it was checked against and what was found. -/
structure Invalid where
  model : Model
  issues : List Issue
deriving DecidableEq

/-! ### All together -/

/-- Any error of the library. -/
inductive Error where
  | build (e : BuildError)
  | misuse (m : Misuse)
  | invalid (i : Invalid)
deriving DecidableEq

end BoundSql
