import Provenance.Dictionary
import Provenance.Fault
import Provenance.Text.Offset
import Provenance.Text.Split
import Provenance.Text.Utf8

/-!
# Files

The files that the program reads and writes: a tree of directories and regular files, by their
absolute paths. Every operation either fails with a fault and changes nothing, or does what it says;
`get?_put` says what stands where after an entry was put in its place.
-/

namespace Provenance

/-- The components of an absolute path. -/
abbrev Place := List String

/-- What stands at a place. -/
inductive Entry where
  | directory
  /-- A regular file, with its permission bits. -/
  | file (mode : Nat) (content : Bytes)
  deriving DecidableEq, Repr

/-- A tree of files. Its root is always there. -/
structure Disk where
  entries : List (Place × Entry)
  /-- Where relative paths begin. -/
  current : Place
  deriving Repr

/-! ## Paths -/

namespace Path

/-- The components of a path, without those that stand for nothing. -/
def components (path : String) : List String :=
  ((Text.splitOn '/' path.toList).map String.ofList).filter fun c => c ≠ "" && c ≠ "."

/-- Whether a path begins at the root. -/
def isAbsolute (path : String) : Bool := path.toList.head? = some '/'

/-- Whether a path says that it leads to a directory. -/
def endsInSlash (path : String) : Bool := path.toList.getLast? = some '/'

/-- A path below another one; an absolute path stays itself. -/
def join (directory path : String) : String :=
  if isAbsolute path || directory.isEmpty then path
  else if endsInSlash directory then directory ++ path
  else directory ++ "/" ++ path

/-- The temporary name of a file that is being written. -/
def partialName (name : String) : String := "." ++ name ++ ".partial"

/-- The bytes that a component may take. -/
def maxComponent : Nat := 255

/-- The bytes that a path may take. -/
def maxPath : Nat := 4095

end Path

namespace Disk

/-- What stands at a place. -/
def get? (d : Disk) (place : Place) : Option Entry :=
  if place.isEmpty then some .directory else Dictionary.get? place d.entries

/-- Puts an entry in its place. -/
def put (place : Place) (entry : Entry) (d : Disk) : Disk :=
  { d with entries := (place, entry) :: Dictionary.erase place d.entries }

/-- Takes away what stands at a place. -/
def erase (place : Place) (d : Disk) : Disk :=
  { d with entries := Dictionary.erase place d.entries }

/-- Takes away a place and all below it. -/
def eraseTree (place : Place) (d : Disk) : Disk :=
  { d with entries := d.entries.filter fun entry => !place.isPrefixOf entry.1 }

/-! ## Looking up -/

/-- Follows components from a directory on. All but the last have to lead to directories. -/
def walk (d : Disk) : Place → List String → Except IoFault Place
  | place, [] => .ok place
  | place, c :: rest =>
    match d.get? place with
    | none => .error .notFound
    | some (.file ..) => .error .notDirectory
    | some .directory =>
      if c = ".." then d.walk place.dropLast rest
      else if Path.maxComponent < Text.byteLength c.toList then .error .nameTooLong
      else d.walk (place ++ [c]) rest

/-- The place that a path leads to, whether something stands there or not. -/
def locate (d : Disk) (path : String) : Except IoFault Place :=
  if path.isEmpty then .error .notFound
  else if path.toList.contains '\x00' then .error .nulInName
  else if Path.maxPath < Text.byteLength path.toList then .error .nameTooLong
  else d.walk (if Path.isAbsolute path then [] else d.current) (Path.components path)

/-- What a path leads to. -/
def find (d : Disk) (path : String) : Except IoFault (Place × Entry) := do
  let place ← d.locate path
  match d.get? place with
  | none => .error .notFound
  | some (.file mode content) =>
    if Path.endsInSlash path then .error .notDirectory else .ok (place, .file mode content)
  | some .directory => .ok (place, .directory)

/-- Whether a path leads to something. That it does not is no fault. -/
def exists? (d : Disk) (path : String) : Except IoFault Bool :=
  match d.find path with
  | .ok _ => .ok true
  | .error .notFound => .ok false
  | .error fault => .error fault

/-- The content of a file. -/
def read (d : Disk) (path : String) : Except IoFault Bytes := do
  match ← d.find path with
  | (_, .file _ content) => .ok content
  | (_, .directory) => .error .isDirectory

/-- The content of a file as text. -/
def readText (d : Disk) (path : String) : Except IoFault String := do
  match Text.text? (← d.read path) with
  | some text => .ok text
  | none => .error .notText

/-- The entries right below a place, by name. -/
def list (d : Disk) (place : Place) : List (String × Entry) :=
  Dictionary.ofList (d.entries.filterMap fun entry =>
    match entry.1.getLast? with
    | some name => if entry.1.dropLast = place then some (name, entry.2) else none
    | none => none)

/-! ## Changing -/

/-- Permissions of a new file. -/
def newMode : Nat := 0o644

/-- Permissions of a program. -/
def programMode : Nat := 0o755

/-- The file that a write opens, with the permissions that it will have. -/
def opened (d : Disk) (path : String) : Except IoFault (Place × Nat) := do
  let place ← d.locate path
  match d.get? place with
  | some .directory => .error .isDirectory
  | some (.file mode _) => if Path.endsInSlash path then .error .notDirectory else .ok (place, mode)
  | none => if Path.endsInSlash path then .error .isDirectory else .ok (place, newMode)

/-- Writes a file, new or in place of its former content. -/
def write (path : String) (content : Bytes) (d : Disk) : Except IoFault Disk := do
  let (place, mode) ← d.opened path
  return d.put place (.file mode content)

/-- Sets the permissions of a file. Those of directories are not kept. -/
def setMode (path : String) (mode : Nat) (d : Disk) : Except IoFault Disk := do
  match ← d.find path with
  | (place, .file _ content) => return d.put place (.file mode content)
  | (_, .directory) => return d

/-- Gives a file another path; a file that stands there is replaced. -/
def rename (source target : String) (d : Disk) : Except IoFault Disk := do
  let (place, entry) ← d.find source
  let goal ← d.locate target
  match d.get? goal with
  | some .directory => .error .isDirectory
  | _ =>
    if Path.endsInSlash target then .error .notDirectory
    else return (d.erase place).put goal entry

/-- Creates the directories of a path that are missing, from `place` on. -/
def createBelow (d : Disk) : Place → List String → Except IoFault Disk
  | place, [] =>
    match d.get? place with
    | some .directory => .ok d
    | _ => .error .alreadyExists
  | place, c :: rest =>
    match d.get? place with
    | some (.file ..) => .error .notDirectory
    | _ =>
      if c = ".." then createBelow d place.dropLast rest
      else if Path.maxComponent < Text.byteLength c.toList then .error .nameTooLong
      else
        let next := place ++ [c]
        match d.get? next with
        | none => createBelow (d.put next .directory) next rest
        | some _ => createBelow d next rest

/-- Creates a directory and those above it, as far as they are missing. -/
def createDirectories (path : String) (d : Disk) : Except IoFault Disk :=
  if path.isEmpty then .ok d
  else if path.toList.contains '\x00' then .error .nulInName
  else if Path.maxPath < Text.byteLength path.toList then .error .nameTooLong
  else d.createBelow (if Path.isAbsolute path then [] else d.current) (Path.components path)

/-! ## Laws -/

/-- What stands where after an entry was put in its place. -/
theorem get?_put {d : Disk} {place other : Place} {entry : Entry} (h : place ≠ []) :
    (d.put place entry).get? other = if other = place then some entry else d.get? other := by
  by_cases ho : other = place
  · subst ho
    simp [get?, put, Dictionary.get?, h]
  · by_cases he : other = []
    · subst he
      simp [get?, Ne.symm h]
    · have this : Dictionary.get? other (Dictionary.erase place d.entries) = _ :=
        Dictionary.get?_erase
      simp only [Dictionary.get?, ho, if_false] at this
      simp only [get?, put, Dictionary.get?, List.isEmpty_iff, he, ho, if_false, List.find?_cons,
        Ne.symm ho, decide_false, this]

end Disk

end Provenance
