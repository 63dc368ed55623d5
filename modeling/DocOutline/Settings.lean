import DocOutline.Log.Call
import DocOutline.Text.Basic
import DocOutline.Text.Case

/-!
# Settings

The settings of the server come from the environment. The names of variables are compared in lower case, and
of several that then coincide the last one counts. An empty value counts as none.
-/

namespace DocOutline

/-- The settings of the server (`Settings`, specification, section 10.8). -/
structure Settings where
  /-- The folder of the index store. -/
  indexPath? : Option String
  /-- The threshold for log records. -/
  logLevel : Log.Level
  /-- Whether log records are written as objects. -/
  logJson : Bool
deriving DecidableEq, Repr

namespace Settings

/-- A value that a setting cannot have. -/
inductive Problem where
  | logJson
  | logLevel
deriving DecidableEq, Repr

def Problem.field : Problem → String
  | logJson => "log_json"
  | logLevel => "log_level"

def Problem.type : Problem → String
  | logJson => "bool_parsing"
  | logLevel => "literal_error"

def value? (environment : List (String × String)) (setting : String) : Option String :=
  (environment.reverse.find? fun (name, value) =>
    value ≠ "" ∧ Text.lower name = "typst_outline_" ++ setting).map Prod.snd

/-- The level that a text names, with white space around it and in any case (`normalize_level`). -/
def level? (text : String) : Option Log.Level :=
  match Text.upper (Text.strip text) with
  | "DEBUG" => some .debug
  | "INFO" => some .info
  | "WARN" | "WARNING" => some .warning
  | "ERROR" => some .error
  | _ => none

/-- The truth value that a text names, in any case of ASCII letters. -/
def truth? (text : String) : Option Bool :=
  let text := String.ofList (text.toList.map Char.toLower)
  if ["1", "true", "t", "yes", "y", "on"].contains text then some true
  else if ["0", "false", "f", "no", "n", "off"].contains text then some false
  else none

def levelName (level : Log.Level) : String := Text.upper level.name

def problem? (read : String → Option α) (problem : Problem) (value? : Option String) : List Problem :=
  match value? with
  | some value => if (read value).isNone then [problem] else []
  | none => []

/-- The settings of an environment, or the problems with its values. -/
def ofEnvironment (environment : List (String × String)) : Except (List Problem) Settings :=
  let logLevel := value? environment "log_level"
  let logJson := value? environment "log_json"
  match problem? truth? .logJson logJson ++ problem? level? .logLevel logLevel with
  | [] =>
    .ok {
      indexPath? := value? environment "index_path"
      logLevel := (logLevel.bind level?).getD .warning
      logJson := (logJson.bind truth?).getD false }
  | problems => .error problems

end Settings

end DocOutline
