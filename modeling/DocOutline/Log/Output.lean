import DocOutline.Json.Access
import DocOutline.Log.Call

/-!
# Log output

How records are written. Each becomes an object on a line of its own, or text in columns for people to read,
with the time in front and what belongs to a failure on further lines. One logger, with those below it in the
hierarchy of names, is kept quiet whatever the threshold.
-/

namespace DocOutline.Log

/-- The logger that reports each request. -/
def quietLogger : List Char := "mcp.server.lowlevel.server".toList

def beforePoint (name : List Char) : List Char := ((name.reverse.dropWhile (· ≠ '.')).drop 1).reverse

theorem length_beforePoint_le (name : List Char) : (beforePoint name).length ≤ name.length := by
  have h : (name.reverse.dropWhile (· ≠ '.')).length ≤ name.reverse.length :=
    (List.dropWhile_sublist _).length_le
  simp only [List.length_reverse] at h
  simp only [beforePoint, List.length_reverse, List.length_drop]
  omega

/-- The names above a name in the hierarchy of loggers, the nearest first: what stands in front of its points,
the last of which counts, and then each that is not next to the one that counted before. -/
def namesAbove (name : List Char) : List (List Char) :=
  if _h : beforePoint name = [] then [] else beforePoint name :: namesAbove (beforePoint name).dropLast
termination_by name.length
decreasing_by
  have := length_beforePoint_le name
  have := List.length_pos_iff.2 _h
  simp only [List.length_dropLast]
  omega

/-- Whether a logger is the quiet one or lies below it. -/
def isQuiet (logger : String) : Bool :=
  logger.toList == quietLogger || (namesAbove logger.toList).contains quietLogger

/-- Whether records of a level are written for a logger, if they reach the threshold. -/
def isHeard (logger : String) (level : Level) : Bool :=
  !isQuiet logger || Level.warning.number ≤ level.number

/-- The name of the program, by which a logger without a name goes. -/
def programName : String := "__main__"

def loggerName (name : String) : String := if name = "" then programName else name

/-- The names of the values that every record gets. A field of such a name gives way. -/
def ownNames : List String := ["event", "level", "logger", "timestamp"]

/-- The names of the values that accompany a record on its way to the output. They are not written. -/
def passingNames : List String := ["_record", "_from_structlog"]

def Record.writtenFields (record : Record) : Fields :=
  record.fields.filter fun (name, _) => !ownNames.contains name && !passingNames.contains name

def objectLine (time logger : String) (record : Record) : Json :=
  .obj ([("event", .str record.event), ("level", .str record.level.name), ("logger", .str logger),
    ("timestamp", .str time)] ++ record.writtenFields)

/-- A text and as many spaces as make `width` characters. -/
def padded (width : Nat) (text : String) : String :=
  text ++ String.ofList (List.replicate (width - text.length) ' ')

def bracketed (text : String) : String := "[" ++ text ++ "]"

def needsQuotes (c : Char) : Bool := [' ', '\t', '=', '\r', '\n', '"', '\''].contains c

def columnValue : Json → String
  | .str text => if text.toList.any needsQuotes then Text.quoted text else text
  | value => value.literal

/-- The order of fields: by name. -/
def fieldOrder (a b : String × Json) : Bool := a.1 ≤ b.1

/-- The names of the fields that have a place of their own in a text: a second name for the logger, and what
belongs to a failure. -/
def placedNames : List String := ["logger_name", "stack", "exception", "exc_info"]

/-- The columns of the fields that have no place of their own, by name. -/
def fieldColumns (record : Record) : List String :=
  ((record.writtenFields.filter fun (name, _) => !placedNames.contains name).mergeSort fieldOrder).map
    fun (name, value) => name ++ "=" ++ columnValue value

/-- The names of the logger: that of the record's logger, and a second one if a field gives it. -/
def loggerColumns (logger : String) (record : Record) : List String :=
  bracketed logger :: (record.fields.lookup "logger_name").toList.map fun name => bracketed name.display

def columns (time logger : String) (record : Record) : List String :=
  [time, bracketed (padded 9 record.level.name), padded 30 record.event] ++ loggerColumns logger record ++
    fieldColumns record

/-- The further lines that a field adds, each with the end of the line before it. There are none if the field
is null. Only a text can add lines. -/
def furtherLines? (record : Record) (name : String) : Option (List String) :=
  match Fields.value record.fields name with
  | .null => some []
  | .str text => some ["\n" ++ text]
  | _ => none

/-- The line between the calls that led to a record and the failure that it reports. -/
def rule : String := "\n\n" ++ String.ofList (List.replicate 79 '=') ++ "\n"

/-- What belongs to a failure: the calls that led to it, and the failure. A traceback that is asked for counts
as a failure, but there is none to be shown. -/
def failureLines? (record : Record) : Option (List String) := do
  let stack ← furtherLines? record "stack"
  let failure ← furtherLines? record "exception"
  let hasFailure := !failure.isEmpty || (Fields.value record.fields "exc_info").isPresent
  return stack ++ (if !stack.isEmpty && hasFailure then [rule] else []) ++ failure

/-- A record of a logger as text in columns. A record with further lines that are no text cannot be written. -/
def columnText? (time logger : String) (record : Record) : Option String :=
  (failureLines? record).map fun further => " ".intercalate (columns time logger record) ++ String.join further

end DocOutline.Log
