import BoundSql.Cardinality
import BoundSql.Compile
import BoundSql.FieldList
import BoundSql.Insert.Plan

/-!
# Sessions

A session sends statements for single tables to a driver, each call at most one statement in a
transaction of its own. A call is prepared first: it either has its answer already or needs a
statement run (`Prepared`). What the driver does with the statement is a `Reply`; the transaction is
committed when the execution goes well, before the rows are looked at. The events of the
transaction are recorded.

* `Session.connect` makes a session for a store;
* `Session.prepare` prepares a call without touching the driver;
* `Session.run` runs a call against the replies of a driver, and gives the replies left over.
-/

namespace BoundSql

/-- The kinds of errors a driver raises. -/
inductive FailureKind where
  /-- The operating system refused. -/
  | system
  /-- The database refused. -/
  | database
  /-- Anything else, by name. -/
  | other (name : String)
deriving DecidableEq

/-- An error a driver raises. -/
structure Failure where
  kind : FailureKind
  text : String
deriving DecidableEq

/-- Whether an error says that the store cannot be reached. -/
def Failure.isConnectivity (f : Failure) : Bool :=
  match f.kind with
  | .system | .database => true
  | .other _ => false

/-- A statement with its parameters. -/
structure Statement where
  sql : String
  parameters : List Value

/-- What a driver does with a statement. -/
inductive Reply where
  /-- The transaction cannot be entered. -/
  | refused (f : Failure)
  /-- The execution fails. -/
  | failed (f : Failure)
  /-- The execution succeeds; rows can be fetched only if the statement returns rows. -/
  | result (rows : List Value) (returnsRows : Bool) (count : Int)

/-- What happens at the driver. -/
inductive Event where
  | entered
  | refused
  | executed (s : Statement)
  | committed
  | rolledBack
  | disposed

/-- The rows of a result, and the number of rows affected. -/
structure ResultSet where
  rows : List Value
  count : Int

/-- Why a call fails: an error of the library, a failure of the driver, or the caller's own error
for a result without exactly one row. -/
inductive CallError (ε : Type) where
  | library (e : Error)
  | driver (f : Failure)
  | notSingle (e : ε)

/-- The answer of a call. -/
inductive Answer where
  | nothing
  | version (s : String)
  | result (r : ResultSet)
  | rows (rows : List Value)
  | row (row : Value)
  | count (n : Int)

/-- What is asked of a session.

A caller may hand over a statement (`query`, `many`, `one`) as a text, or as a function that makes
the text with the field lists of `FieldList` before the transaction is entered. A call has the text
alone: what the function does besides making it, and that it may fail, is not represented. What is
made of texts and field lists is a `Template`, and `Template.render` gives its text. -/
inductive Call (ε : Type) where
  | probe
  | close
  | query (sql : String) (values : Value)
  | many (sql : String) (values : Value)
  | one (sql : String) (values : Value) (notSingle : ε)
  | getAll (table : String) (filters : Value) (notSingle : Option ε)
  | get (table : String) (fields : List String) (filters : Value) (notSingle : Option ε)
  | search (table : String) (data : Value) (textFields : List String)
  | insert (table : String) (data : Value) (returning : Bool)
  | bulkInsert (table : String) (rows : Value) (returning : Bool)
  | update (table : String) (data filters : Value) (allowAll : Bool)
  | delete (table : String) (filters : Value) (allowAll : Bool)

/-- How the answer of a call is made of a result. -/
inductive Expectation (ε : Type) where
  | version
  | result
  | rows
  | exactlyOne (notSingle : ε)
  | count

/-- A call that is ready: answered already, closing, or waiting for a statement. -/
inductive Prepared (ε : Type) where
  | done (a : Answer)
  | dispose
  | send (s : Statement) (e : Expectation ε)

/-- A connection to a store: how to write SQL for it, which columns hold arrays, and where it is. -/
structure Session where
  compiler : Compiler
  arrays : List String
  host : Option String

namespace Session

variable {ε : Type}

/-- How to write SQL for the store. -/
def dialect (s : Session) : Dialect := s.compiler.dialect

/-- The first of two texts that is there and not empty, else the second. -/
def hostOrDatabase (host database : Option String) : Option String :=
  match host with
  | some h => if h.isEmpty then database else some h
  | none => database

/-- A session for the store of the given name and placeholder style. -/
def connect (name style : Value) (host database : Option String) (strict : Bool) (aliases : Aliases)
    (arrays : List String) : Report Error Session :=
  match Dialect.resolve name style with
  | .error e => .fail e
  | .ok d =>
    ⟨[.serving d.name (hostOrDatabase host database)],
      .ok ⟨{ dialect := d, strict := strict, aliases := aliases }, arrays, host⟩⟩

/-! ### Statements -/

/-- Parts of a statement that are not empty, divided by spaces. -/
def sentence (parts : List String) : String :=
  " ".intercalate (parts.filter fun p => !p.isEmpty)

/-- The statement that asks a store for its version. -/
def versionProbe (d : Dialect) : String :=
  if d.name = Dialect.postgres.name then "SHOW server_version"
  else "SELECT sqlite_version() AS server_version"

/-- The clause that asks an `INSERT` for the rows it made. -/
def returningClause (returning : Bool) : String := if returning then "RETURNING *" else ""

/-- A projection from a table. -/
def selectFrom (projection table : String) (rest : List String) : String :=
  sentence (("SELECT " ++ projection) :: ("FROM " ++ Ident.quote table) :: rest)

/-- The clause that limits a search; its two values come after all others. -/
def pageClause (d : Dialect) (bound : Nat) : String :=
  "LIMIT " ++ d.placeholder (bound + 1) ++ " OFFSET " ++ d.placeholder (bound + 2)

/-- An `INSERT` with the tuples of a plan. -/
def insertInto (table : String) (p : InsertPlan) (tuples : String) (returning : Bool) :
    Statement :=
  ⟨sentence
      ["INSERT INTO " ++ Ident.quote table ++ " (" ++ p.columnList ++ ")", "VALUES " ++ tuples,
        returningClause returning],
    p.values⟩

/-- Assignments of columns to the placeholders from the given number on. -/
def assignmentsFrom (d : Dialect) (index : Nat) : List String → List String
  | [] => []
  | c :: cs =>
    (Ident.quote c ++ " = " ++ d.placeholder index) :: assignmentsFrom d (index + 1) cs

/-- The assignments of an `UPDATE`. -/
def assignments (d : Dialect) (columns : List String) : String :=
  ",".intercalate (assignmentsFrom d 1 columns)

/-! ### Preparing calls -/

/-- A statement given by the caller; its values must be iterable. -/
def given (sql : String) (values : Value) (e : Expectation ε) : Except Error (Prepared ε) :=
  match values.items? with
  | some vs => .ok (.send ⟨sql, vs⟩ e)
  | none => .error (.misuse (.notIterable values.qualifiedTypeName))

/-- What is expected of a read: all rows, or exactly one. -/
def readExpectation : Option ε → Expectation ε
  | some e => .exactlyOne e
  | none => .rows

/-- The filter of a write; it must leave a clause unless all rows may be affected. -/
def writeFilter (s : Session) (statement table : String) (filters : Value) (allowAll : Bool)
    (offset : Nat) : Report Error Compiled :=
  (s.compiler.filter offset filters).bind fun c =>
    if c.whereClause.isEmpty && !allowAll then
      ⟨[.refusedWrite statement table], .error (.build (.unfilteredWrite statement table))⟩
    else .ok c

/-- Prepares an update. -/
def prepareUpdate (s : Session) (table : String) (data filters : Value) (allowAll : Bool) :
    Report Error (Prepared ε) :=
  (Report.ofExcept (storedRow s.arrays data)).bind fun changes =>
    if changes.isEmpty then .ok (.done (.count 0))
    else
      (s.writeFilter "UPDATE" table filters allowAll changes.length).map fun c =>
        .send
          ⟨sentence
              ["UPDATE " ++ Ident.quote table,
                "SET " ++ assignments s.dialect (changes.map (·.1)), c.whereClause],
            changes.map (·.2) ++ c.values⟩
          .count

/-- Prepares a bulk insert; without rows there is nothing to do. -/
def prepareBulkInsert (s : Session) (table : String) (rows : Value) (returning : Bool) :
    Except Error (Prepared ε) :=
  if rows.isEmpty then .ok (.done (.rows []))
  else (InsertPlan.bulk s.dialect 0 s.arrays true rows).map fun p =>
    .send (insertInto table p p.placeholders returning) .rows

/-- Prepares a call. -/
def prepare (s : Session) : Call ε → Report Error (Prepared ε)
  | .probe => .ok (.send ⟨versionProbe s.dialect, []⟩ .version)
  | .close => .ok .dispose
  | .query sql values => .ofExcept (given sql values .result)
  | .many sql values => .ofExcept (given sql values .rows)
  | .one sql values notSingle => .ofExcept (given sql values (.exactlyOne notSingle))
  | .getAll table filters notSingle =>
    (s.compiler.filter 0 filters).map fun c =>
      .send ⟨selectFrom "*" table [c.whereClause], c.values⟩ (readExpectation notSingle)
  | .get table fields filters notSingle =>
    (s.compiler.filter 0 filters).map fun c =>
      .send ⟨selectFrom (FieldList.select table none fields) table [c.whereClause], c.values⟩
        (readExpectation notSingle)
  | .search table data textFields =>
    (s.compiler.selectRaw { textFields := textFields } data).map fun c =>
      .send
        ⟨selectFrom "*" table
            [c.whereClause, c.sortClause, pageClause s.dialect c.values.length],
          c.values ++ [c.limit, c.offset]⟩
        .rows
  | .insert table data returning =>
    .ofExcept ((InsertPlan.single s.dialect 0 s.arrays data).map fun p =>
      .send (insertInto table p ("(" ++ p.placeholders ++ ")") returning) .rows)
  | .bulkInsert table rows returning => .ofExcept (s.prepareBulkInsert table rows returning)
  | .update table data filters allowAll => s.prepareUpdate table data filters allowAll
  | .delete table filters allowAll =>
    (s.writeFilter "DELETE" table filters allowAll 0).map fun c =>
      .send ⟨sentence ["DELETE FROM " ++ Ident.quote table, c.whereClause], c.values⟩ .count

/-! ### Running calls -/

/-- The outcome of a statement in a transaction of its own. -/
structure Exchange where
  events : List Event
  result : Except Failure ResultSet

/-- Runs a statement against the reply of a driver. -/
def exchange (s : Statement) : Reply → Exchange
  | .refused f => ⟨[.refused], .error f⟩
  | .failed f => ⟨[.entered, .executed s, .rolledBack], .error f⟩
  | .result rows returnsRows count =>
    ⟨[.entered, .executed s, .committed], .ok ⟨if returnsRows then rows else [], count⟩⟩

/-- The reply of a driver that has nothing special to say. -/
def silentReply : Reply := .result [] true (-1)

/-- The version in the first column of the first row. -/
def versionOf (rows : List Value) : Except Error String :=
  match rows with
  | [] => .error (.misuse .noFirstRow)
  | row :: _ =>
    match row with
    | .map ((_, v) :: _) => .ok v.plainText
    | _ => .error (.misuse .noFirstColumn)

/-- The answer of a call whose statement gave a result. -/
def answer (s : Session) (r : ResultSet) : Expectation ε → Report (CallError ε) Answer
  | .version =>
    match versionOf r.rows with
    | .ok v => ⟨[.serverVersion s.dialect.name v], .ok (.version v)⟩
    | .error e => .fail (.library e)
  | .result => .ok (.result r)
  | .rows => .ok (.rows r.rows)
  | .exactlyOne notSingle =>
    match exactlyOne r.rows notSingle with
    | .ok row => .ok (.row row)
    | .error e => .fail (.notSingle e.error)
  | .count => .ok (.count r.count)

/-- The outcome of a call whose statement failed: a probe that cannot reach the store is a
connectivity error. -/
def failure (s : Session) (f : Failure) : Expectation ε → Report (CallError ε) Answer
  | .version =>
    if f.isConnectivity then
      let text := "Unable to connect to " ++ s.dialect.name ++ " server: " ++ f.text
      ⟨[.unreachable s.host], .error (.library (.build (.connectivity text)))⟩
    else .fail (.driver f)
  | _ => .fail (.driver f)

/-- What a call came to: the events at the driver, the outcome, and the replies left over. -/
structure Outcome (ε : Type) where
  events : List Event
  report : Report (CallError ε) Answer
  replies : List Reply

/-- Runs a call against the replies of a driver. -/
def run (s : Session) (call : Call ε) (replies : List Reply) : Outcome ε :=
  let ready := s.prepare call
  match ready.result with
  | .error e => ⟨[], ⟨ready.notices, .error (.library e)⟩, replies⟩
  | .ok (.done a) => ⟨[], ⟨ready.notices, .ok a⟩, replies⟩
  | .ok .dispose => ⟨[.disposed], ⟨ready.notices, .ok .nothing⟩, replies⟩
  | .ok (.send statement expectation) =>
    -- The transaction is over before the rows are looked at.
    let x := exchange statement (replies.headD silentReply)
    let report := match x.result with
      | .ok r => s.answer r expectation
      | .error f => s.failure f expectation
    ⟨x.events, ⟨ready.notices ++ report.notices, report.result⟩, replies.tail⟩

end Session

end BoundSql
