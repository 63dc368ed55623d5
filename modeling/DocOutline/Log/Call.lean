import DocOutline.Json.Basic
import DocOutline.Text.Case

/-!
# Log records and calls of loggers

What is logged, and which calls log it.
-/

namespace DocOutline.Log

/-! ## Log records

A record is an event of some severity with named values. The levels are numbered, so that a threshold can lie
between them or on one of them.
-/

/-- The severity of a record. -/
inductive Level where
  | debug
  | info
  | warning
  | error
  | critical
deriving DecidableEq, Repr, Inhabited

namespace Level

def name : Level → String
  | debug => "debug"
  | info => "info"
  | warning => "warning"
  | error => "error"
  | critical => "critical"

/-- The number of a level: the more severe, the larger. -/
def number : Level → Nat
  | debug => 10
  | info => 20
  | warning => 30
  | error => 40
  | critical => 50

end Level

/-- An event with its values. -/
structure Record where
  event : String
  level : Level
  fields : List (String × Json)
deriving Repr, Inhabited

def Record.toJson (record : Record) : Json :=
  .obj (("event", .str record.event) :: ("log_level", .str record.level.name) :: record.fields)

/-! ## Calls of loggers

A logger is called by the name of a method, with an event and named values, the fields. Most methods write a
record of some level, unless the level is below the threshold. A call fails if there is no such method, or if
its arguments do not fit the method.
-/

/-- The threshold for the name of a level, in upper or lower case (`configure_logging`, specification, section
10.8). Any other name stands for warnings. -/
def threshold (name : String) : Level :=
  match Text.upper name with
  | "DEBUG" => .debug
  | "INFO" => .info
  | "ERROR" => .error
  | _ => .warning

/-- What a method of a logger does. -/
inductive Method where
  | write (level : Level)
  /-- Writes an error and asks for a traceback with it. -/
  | exception
  /-- Prepares a record that is not written unless somebody waits for it. -/
  | deferred
  /-- Takes back a value that was bound to the logger. If `needed`, there has to be one. -/
  | unbind (needed : Bool)
  /-- Does something for which an event is no argument. -/
  | other
deriving DecidableEq, Repr

/-- The method of a name. Some methods have two names. -/
def Method.ofName? : String → Option Method
  | "debug" => some (.write .debug)
  | "info" | "msg" => some (.write .info)
  | "warning" | "warn" => some (.write .warning)
  | "error" => some (.write .error)
  | "critical" | "fatal" => some (.write .critical)
  | "exception" => some .exception
  | "adebug" | "ainfo" | "amsg" | "awarning" | "awarn" | "aerror" | "aexception" | "acritical" | "afatal" =>
    some .deferred
  | "unbind" => some (.unbind true)
  | "try_unbind" => some (.unbind false)
  | "log" | "alog" | "bind" | "new" | "is_enabled_for" | "get_effective_level" => some .other
  | _ => none

/-- Why a call fails. -/
inductive CallError where
  | unknownMethod
  /-- The arguments do not fit the method. -/
  | misfit
  /-- No value of the name is bound to the logger. -/
  | unbound (name : String)
  /-- A field claims to be a record of another system and is none. -/
  | foreignRecord
deriving DecidableEq, Repr

abbrev Fields := List (String × Json)

def Fields.has (fields : Fields) (name : String) : Bool := fields.any fun field => field.1 == name

/-- The value of a field, null if there is none. -/
def Fields.value (fields : Fields) (name : String) : Json := (fields.lookup name).getD .null

/-- The record that a method writes at a level, if the level is not below the threshold. Only then a field
clashes with the names that the logger uses for itself. -/
def compose (threshold level : Level) (event : String) (fields : Fields) : Except CallError (Option Record) :=
  if level.number < threshold.number then .ok none
  else if fields.has "method_name" then .error .misfit
  else
    match fields.value "_record" with
    | .null => .ok (some ⟨event, level, fields⟩)
    | _ => .error .foreignRecord

/-- The fields of a call that asks for a traceback, unless they say something about it themselves. -/
def withTraceback (fields : Fields) : Fields :=
  if fields.has "exc_info" then fields else fields ++ [("exc_info", .bool true)]

/-- Whether a field has the name under which every method gets its logger or its event. -/
def takesPlace (fields : Fields) : Bool := fields.has "self" || fields.has "event"

/-- The record that a call writes, if it writes one. -/
def call (threshold : Level) (method event : String) (fields : Fields) : Except CallError (Option Record) :=
  match Method.ofName? method with
  | none => .error .unknownMethod
  | some (.write level) => if takesPlace fields then .error .misfit else compose threshold level event fields
  | some .exception =>
    if takesPlace fields then .error .misfit else compose threshold .error event (withTraceback fields)
  | some .deferred => if takesPlace fields then .error .misfit else .ok none
  | some (.unbind needed) =>
    if !fields.isEmpty then .error .misfit else if needed then .error (.unbound event) else .ok none
  | some .other => .error .misfit

end DocOutline.Log
