import DocOutline.Text.Bytes
import DocOutline.Text.Quoted

/-!
# Paths and disks

What a text names as a path, and what is found or done at the end of it.
-/

namespace DocOutline

/-! ## Paths

A path is what a text says about a place: names, from the working folder or from the root. Empty names and
single points are left out when a text is read; `..` is kept, since only a disk tells where it leads.
-/

/-- A path. The root is empty for a path from the working folder. -/
structure Path where
  root : String
  parts : List String
deriving DecidableEq, Repr, Inhabited

namespace Path

/-- The stretches between the slashes of a text. -/
def pieces : List Char → List (List Char)
  | [] => [[]]
  | c :: rest =>
    if c = '/' then [] :: pieces rest
    else
      match pieces rest with
      | piece :: others => (c :: piece) :: others
      | [] => [[c]]

/-- Whether a stretch between slashes says where to go. -/
def isName (piece : List Char) : Bool := piece != [] && piece != ['.']

def names (text : String) : List String := ((pieces text.toList).filter isName).map String.ofList

/-- The root that a text begins with. Two slashes, no more and no less, are a root of their own. -/
def rootOf (text : String) : String :=
  match (text.toList.takeWhile (· = '/')).length with
  | 0 => ""
  | 2 => "//"
  | _ => "/"

def ofText (text : String) : Path := ⟨rootOf text, names text⟩

def toText (path : Path) : String :=
  if path.root = "" ∧ path.parts = [] then "." else path.root ++ "/".intercalate path.parts

/-- The path that a text stands for behind another path. A text with a root stands for itself. -/
def join (path : Path) (text : String) : Path :=
  let other := ofText text
  if other.root = "" then ⟨path.root, path.parts ++ other.parts⟩ else other

def parent (path : Path) : Path := { path with parts := path.parts.dropLast }

def name (path : Path) : String := path.parts.getLast?.getD ""

/-- The suffix of a name: from its last point on, unless the point is the first or the last character. -/
def suffixOf (name : String) : String :=
  let cs := name.toList
  let after := (cs.reverse.takeWhile (· ≠ '.')).length
  if 0 < after ∧ after + 1 < cs.length then String.ofList (cs.drop (cs.length - after - 1)) else ""

def suffix (path : Path) : String := suffixOf path.name

/-- The path with the folder of a user in place of a first name that begins with a tilde. `homeOf?` knows the
folders. -/
def expand? (homeOf? : String → Option String) (path : Path) : Option Path :=
  match path.root, path.parts with
  | "", first :: rest =>
    if first.toList.head? = some '~' then
      (homeOf? (String.ofList first.toList.tail)).map fun home =>
        { ofText home with parts := (ofText home).parts ++ rest }
    else some path
  | _, _ => some path

/-- Goes from a place along names, and back at every `..`. -/
def follow : (place : List String) → List String → List String
  | place, [] => place
  | place, part :: parts => follow (if part = ".." then place.dropLast else place ++ [part]) parts

/-- The path from the root that leads to the same place, by its text alone. Whatever the root was, it is a single
slash now. -/
def resolve (folder : List String) (path : Path) : Path :=
  ⟨"/", follow (if path.root = "" then folder else []) path.parts⟩

end Path

/-! ## Disks

A disk holds files and folders at places, which are lists of names from the root. `locate` follows a path from
a folder; all operations start with it. An operation fails for one of a few reasons, and then leaves the disk
as it is.
-/

/-- Where a file or folder is: the names from the root. -/
abbrev Place := List String

/-- What a disk holds at a place. -/
inductive Item where
  | folder
  | file (bytes : Text.Bytes)
deriving DecidableEq, Repr, Inhabited

/-- Files and folders by their places. The folder at the root is not listed. -/
structure Disk where
  items : List (Place × Item)
deriving Repr, Inhabited

namespace Disk

/-- Why an operation on a disk fails. -/
inductive Trouble where
  | notFound
  | alreadyThere
  | notFolder
  | isFolder
  | invalid
  | nameTooLong
  | notEmpty
deriving DecidableEq, Repr

/-- The number of a trouble. -/
def Trouble.number : Trouble → Nat
  | notFound => 2
  | alreadyThere => 17
  | notFolder => 20
  | isFolder => 21
  | invalid => 22
  | nameTooLong => 36
  | notEmpty => 39

/-- The words for a trouble. -/
def Trouble.words : Trouble → String
  | notFound => "No such file or directory"
  | alreadyThere => "File exists"
  | notFolder => "Not a directory"
  | isFolder => "Is a directory"
  | invalid => "Invalid argument"
  | nameTooLong => "File name too long"
  | notEmpty => "Directory not empty"

/-- A failed operation: what is wrong, and the path that was given, if there was one. -/
inductive Error where
  | trouble (trouble : Trouble) (path? : Option String)
  /-- A path holds the character that ends texts on a disk. -/
  | nullByte
deriving DecidableEq, Repr

/-- The message of a failed operation. -/
def Error.message : Error → String
  | trouble t (some path) => s!"[Errno {t.number}] {t.words}: {Text.quoted path}"
  | trouble t none => s!"[Errno {t.number}] {t.words}"
  | nullByte => "embedded null byte"

def item? (disk : Disk) (place : Place) : Option Item :=
  if place = [] then some .folder else disk.items.lookup place

/-- Puts something at a place, instead of what is there. -/
def put (place : Place) (item : Item) (disk : Disk) : Disk :=
  ⟨(place, item) :: disk.items.filter fun (other, _) => other != place⟩

def isBelow (folder place : Place) : Bool := folder.isPrefixOf place && folder.length < place.length

/-- The files and folders below a place, with the names that lead to them from there. -/
def below (disk : Disk) (folder : Place) : List (List String × Item) :=
  (disk.items.filter fun (place, _) => isBelow folder place).map fun (place, item) =>
    (place.drop folder.length, item)

def clear (folder : Place) (disk : Disk) : Disk :=
  ⟨disk.items.filter fun (place, _) => !isBelow folder place⟩

def drop (place : Place) (disk : Disk) : Disk := ⟨disk.items.filter fun (other, _) => other != place⟩

def maxName : Nat := 255

def maxPath : Nat := 4095

/-- Follows names from a place to where they lead. All on the way have to be folders that are there; what they
lead to need not be. -/
def follow (disk : Disk) : (here : Place) → List String → Except Trouble Place
  | here, [] => .ok here
  | here, part :: parts =>
    match disk.item? here with
    | none => .error .notFound
    | some (.file _) => .error .notFolder
    | some .folder =>
      if part = ".." then follow disk here.dropLast parts
      else if maxName < part.utf8ByteSize then .error .nameTooLong
      else follow disk (here ++ [part]) parts

/-- The place that a path leads to from a working folder. -/
def locate (disk : Disk) (folder : Place) (path : Path) : Except Error Place :=
  let text := path.toText
  if text.toList.contains '\x00' then .error .nullByte
  else if maxPath < text.utf8ByteSize then .error (.trouble .nameTooLong (some text))
  else
    (follow disk (if path.root = "" then folder else []) path.parts).mapError fun t =>
      .trouble t (some text)

/-- What is at the end of a path that leads to a place. A path without names ends where it starts, which is a
folder even after it was taken away. -/
def itemAt? (disk : Disk) (place : Place) (path : Path) : Option Item :=
  if path.parts = [] then some .folder else disk.item? place

/-- What is at the end of a path. It counts as nothing that the way there is not passable. -/
def look? (disk : Disk) (folder : Place) (path : Path) : Except Error (Option Item) :=
  match locate disk folder path with
  | .ok place => .ok (disk.itemAt? place path)
  | .error .nullByte => .ok none
  | .error (.trouble .notFound _) => .ok none
  | .error (.trouble .notFolder _) => .ok none
  | .error error => .error error

def exists? (disk : Disk) (folder : Place) (path : Path) : Except Error Bool :=
  (look? disk folder path).map Option.isSome

def isFile? (disk : Disk) (folder : Place) (path : Path) : Except Error Bool :=
  (look? disk folder path).map fun
    | some (.file _) => true
    | _ => false

def isFolder? (disk : Disk) (folder : Place) (path : Path) : Except Error Bool :=
  (look? disk folder path).map fun
    | some .folder => true
    | _ => false

def fail (trouble : Trouble) (path : Path) : Except Error α := .error (.trouble trouble (some path.toText))

/-- The path from the root that leads to the same place. The names of a path are not looked up for that, but the
folder from which it starts has to be there. -/
def resolve (disk : Disk) (folder : Place) (path : Path) : Except Error Path :=
  if path.toText.toList.contains '\x00' then .error .nullByte
  else if path.root = "" ∧ disk.item? folder = none then .error (.trouble .notFound none)
  else .ok (path.resolve folder)

def makeFolder (folder : Place) (path : Path) (disk : Disk) : Except Error Disk := do
  let place ← locate disk folder path
  match disk.itemAt? place path with
  | some _ => fail .alreadyThere path
  | none => .ok (disk.put place .folder)

/-- Makes a folder unless it is there. -/
def ensureFolder (folder : Place) (path : Path) (disk : Disk) : Except Error Disk :=
  match makeFolder folder path disk with
  | .ok disk => .ok disk
  | .error .nullByte => .error .nullByte
  | .error (.trouble .notFound path?) => .error (.trouble .notFound path?)
  | .error error => do
    if ← isFolder? disk folder path then .ok disk else .error error

/-- The bytes of a file. -/
def read (disk : Disk) (folder : Place) (path : Path) : Except Error Text.Bytes := do
  match disk.itemAt? (← locate disk folder path) path with
  | some (.file bytes) => .ok bytes
  | some .folder => fail .isFolder path
  | none => fail .notFound path

/-- Writes a file, whose folder has to be there. -/
def write (folder : Place) (path : Path) (bytes : Text.Bytes) (disk : Disk) : Except Error Disk := do
  let place ← locate disk folder path
  match disk.itemAt? place path with
  | some .folder => fail .isFolder path
  | _ => .ok (disk.put place (.file bytes))

/-- Takes away a file. -/
def unlink (folder : Place) (path : Path) (disk : Disk) : Except Error Disk := do
  let place ← locate disk folder path
  match disk.itemAt? place path with
  | some (.file _) => .ok (disk.drop place)
  | some .folder => fail .isFolder path
  | none => fail .notFound path

/-- Takes away an empty folder. It has to be called by its name; one that is called `..` holds another. -/
def removeFolder (folder : Place) (path : Path) (disk : Disk) : Except Error Disk :=
  match path.parts with
  | [] => fail .invalid path
  | [".."] => fail .notEmpty path
  | parts => do
    let place ← locate disk folder path
    if parts.getLast? = some ".." then fail .notEmpty path else .ok (disk.drop place)

/-- A change of a disk that may stop half-way. What it has done until then stays done. -/
abbrev Change := ExceptT Error (StateM Disk)

/-- A change that is made whole or not at all. -/
def Change.ofStep (step : Disk → Except Error Disk) : Change Unit := fun disk =>
  match step disk with
  | .ok disk => (.ok (), disk)
  | .error error => (.error error, disk)

/-- Makes a folder and those on the way to it, as far as they are not there. The names come last one first. -/
def ensureFolders (folder : Place) (root : String) : List String → Change Unit
  | [] => Change.ofStep (ensureFolder folder ⟨root, []⟩)
  | name :: above => fun disk =>
    let path : Path := ⟨root, (name :: above).reverse⟩
    match makeFolder folder path disk with
    | .error (.trouble .notFound _) =>
      (do
        ensureFolders folder root above
        Change.ofStep (ensureFolder folder path) : Change Unit) disk
    | _ => Change.ofStep (ensureFolder folder path) disk

/-- Makes the folder at the end of a path and those on the way to it. -/
def makeFolders (folder : Place) (path : Path) : Change Unit :=
  ensureFolders folder path.root path.parts.reverse

/-- Takes away a folder with all that is in it. -/
def removeTree (folder : Place) (path : Path) : Change Unit := do
  Change.ofStep fun disk => do
    let place ← locate disk folder path
    match disk.itemAt? place path with
    | some .folder => .ok (disk.clear place)
    | some (.file _) => fail .notFolder path
    | none => fail .notFound path
  Change.ofStep (removeFolder folder path)

end Disk

end DocOutline
