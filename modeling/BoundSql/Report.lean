import BoundSql.Error

/-!
# Notices and reports

A `Notice` is a record for the log, kept as what happened. A `Report` is the outcome of a
computation together with the notices it left, oldest first; notices stay when it fails.

* `Report.bind` runs a second computation on the value of the first and appends its notices;
* `Report.after` puts the notices of an earlier computation in front.
-/

namespace BoundSql

/-- Something worth logging. -/
inductive Notice where
  | droppedNode (path : String) (item : Value)
  | droppedLeaf (column operator : String)
  | serving (dialect : String) (host : Option String)
  | unreachable (host : Option String)
  | serverVersion (dialect version : String)
  | refusedWrite (statement table : String)

/-- The part of the library a notice comes from. -/
inductive Origin where
  | reader
  | compiler
  | session
deriving DecidableEq

/-- How serious a notice is. -/
inductive Severity where
  | info
  | warning
  | error
deriving DecidableEq

namespace Notice

/-- Where a notice comes from. -/
def origin : Notice → Origin
  | droppedNode _ _ => .reader
  | droppedLeaf _ _ => .compiler
  | _ => .session

/-- How serious a notice is. -/
def severity : Notice → Severity
  | droppedNode _ _ | droppedLeaf _ _ | refusedWrite _ _ => .warning
  | serving _ _ | serverVersion _ _ => .info
  | unreachable _ => .error

/-- The wording of a notice, with a mark for each argument. -/
def template : Notice → String
  | droppedNode _ _ => "Dropping malformed filter node at %s: %r"
  | droppedLeaf _ _ => "Dropping filter on %s: unknown operator %r"
  | serving _ _ => "Using %s db host: %s"
  | unreachable _ => "Unable to connect to server with %s"
  | serverVersion _ _ => "%s server version is: %s"
  | refusedWrite _ _ => "Refusing unfiltered %s on %s"

/-- A text that may be missing, as a value. -/
private def optional : Option String → Value
  | some s => .text s
  | none => .null

/-- The arguments of the wording. -/
def arguments : Notice → List Value
  | droppedNode path item => [.text path, item]
  | droppedLeaf column operator => [.text column, .text operator]
  | serving dialect host => [.text dialect, optional host]
  | unreachable host => [optional host]
  | serverVersion dialect version => [.text dialect, .text version]
  | refusedWrite statement table => [.text statement, .text table]

end Notice

/-- An outcome and the notices left on the way to it. -/
structure Report (ε α : Type) where
  notices : List Notice
  result : Except ε α

namespace Report

variable {ε δ α β : Type}

/-- A value without notices. -/
def ok (a : α) : Report ε α := ⟨[], .ok a⟩

/-- An error without notices. -/
def fail (e : ε) : Report ε α := ⟨[], .error e⟩

/-- An outcome without notices. -/
def ofExcept (r : Except ε α) : Report ε α := ⟨[], r⟩

/-- Puts earlier notices in front. -/
def after (earlier : List Notice) (r : Report ε α) : Report ε α := ⟨earlier ++ r.notices, r.result⟩

/-- Goes on with the value, if there is one. -/
def bind (r : Report ε α) (f : α → Report ε β) : Report ε β :=
  match r.result with
  | .ok a => after r.notices (f a)
  | .error e => ⟨r.notices, .error e⟩

/-- Changes the value. -/
def map (f : α → β) (r : Report ε α) : Report ε β := ⟨r.notices, r.result.map f⟩

/-- Changes the error. -/
def mapError (f : ε → δ) (r : Report ε α) : Report δ α := ⟨r.notices, r.result.mapError f⟩

instance : Monad (Report ε) where
  pure := ok
  bind := bind

theorem bind_of_ok {r : Report ε α} {a : α} (h : r.result = .ok a) (f : α → Report ε β) :
    r.bind f = after r.notices (f a) := by
  simp [bind, h]

theorem bind_of_error {r : Report ε α} {e : ε} (h : r.result = .error e) (f : α → Report ε β) :
    r.bind f = ⟨r.notices, .error e⟩ := by
  simp [bind, h]

@[simp] theorem ok_bind (a : α) (f : α → Report ε β) : (ok a : Report ε α).bind f = f a := by
  simp [ok, bind, after]

@[simp] theorem fail_bind (e : ε) (f : α → Report ε β) :
    (fail e : Report ε α).bind f = fail e := by
  simp [fail, bind]

end Report

end BoundSql
