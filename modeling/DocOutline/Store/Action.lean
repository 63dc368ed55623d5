import DocOutline.Disk.Basic
import DocOutline.Json.Reader
import DocOutline.Outline.Extract

/-!
# Actions of the server

An action reads and changes a disk and writes log records; what surrounds it (the working folder, the folders
of users, the clock, the parser) stays the same. An action may fail, and what it has done until then stays
done.
-/

namespace DocOutline

/-- Why an action fails. -/
inductive Fault where
  | disk (error : Disk.Error)
  | access (fault : Json.Fault)
  | entry (error : Symbol.ReadError)
  | json (error : Json.ReadError)
  | utf8 (error : Text.Utf8Error)
  | extract (error : Outline.ExtractError)
  /-- The folder of a user is not known. -/
  | noHome
deriving Repr

namespace Text

def Utf8Flaw.words : Utf8Flaw → String
  | startByte => "invalid start byte"
  | continuationByte => "invalid continuation byte"
  | unexpectedEnd => "unexpected end of data"

/-- The message about bytes that are no UTF-8. -/
def Utf8Error.message (error : Utf8Error) : String :=
  match error.bad with
  | [b] =>
    let byte := String.ofList (hexDigits 2 b.toNat)
    s!"'utf-8' codec can't decode byte 0x{byte} in position {error.position}: {error.flaw.words}"
  | bad =>
    let last := error.position + bad.length - 1
    s!"'utf-8' codec can't decode bytes in position {error.position}-{last}: {error.flaw.words}"

end Text

def Outline.ExtractError.message : Outline.ExtractError → String
  | parser message => message
  | outline (.structure error) => error.message
  | outline .noEntry => "list index out of range"
  | outline .noCall => Json.Fault.tooDeep.message

namespace Fault

/-- The message of a fault. -/
def message : Fault → String
  | disk error => error.message
  | access fault => fault.message
  | entry error => error.message
  | json error => error.message
  | utf8 error => error.message
  | extract error => error.message
  | noHome => "Could not determine home directory."

end Fault

/-- What surrounds an action. -/
structure Site where
  /-- The working folder. -/
  folder : Place
  /-- The folders of users, the current one having an empty name. -/
  homeOf? : String → Option String
  /-- The folder of the index store, as it is set. -/
  storage? : Option String
  /-- The time now. -/
  now : String
  parser : Outline.Parser

/-- What actions work on. The log has the latest record at its end. -/
structure World where
  disk : Disk
  records : List Log.Record

abbrev Action (α : Type) := ReaderT Site (ExceptT Fault (StateM World)) α

namespace Action

def ofExcept (fault : ε → Fault) (result : Except ε α) : Action α := fun _ world =>
  match result with
  | .ok a => (.ok a, world)
  | .error error => (.error (fault error), world)

def access (result : Except Json.Fault α) : Action α := ofExcept .access result

def ask (question : Disk → Place → Path → Except Disk.Error α) (path : Path) : Action α := fun site world =>
  ofExcept .disk (question world.disk site.folder path) site world

def change (change : Place → Disk.Change α) : Action α := fun site world =>
  let result := change site.folder world.disk
  (result.1.mapError .disk, { world with disk := result.2 })

def writeFile (path : Path) (bytes : Text.Bytes) : Action Unit :=
  change fun folder => Disk.Change.ofStep (Disk.write folder path bytes)

def makeFolders (path : Path) : Action Unit := change fun folder => Disk.makeFolders folder path

def log (record : Log.Record) : Action Unit := fun _ world =>
  (.ok (), { world with records := world.records ++ [record] })

/-- Does something and gives its outcome, whether it fails or not. -/
def outcome (action : Action α) : Action (Except Fault α) := fun site world =>
  let result := action site world
  (.ok result.1, result.2)

/-- The path with the folder of a user in place of a tilde. -/
def expand (path : Path) : Action Path := fun site world =>
  match path.expand? site.homeOf? with
  | some path => (.ok path, world)
  | none => (.error .noHome, world)

end Action

end DocOutline
