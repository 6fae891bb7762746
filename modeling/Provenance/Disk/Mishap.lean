import Provenance.Disk

/-!
# Mishaps with files

Operations on files may also fail for no reason to be seen in the files, such as a full or broken
device. Then the files stay as they are, but for a write that had begun.
-/

namespace Provenance

/-- What goes wrong with an operation on files for no reason to be seen in the files. -/
structure Mishap where
  fault : IoFault
  /-- How many bytes a write had written by then; `none` if it had not yet opened the file. -/
  written : Option Nat
  deriving DecidableEq, Repr

namespace Disk

variable {α : Type}

/-- Asks the disk something. -/
def asking (mishap : Option Mishap) (question : Disk → Except IoFault α) (d : Disk) :
    Except IoFault α :=
  match mishap with
  | some m => .error m.fault
  | none => question d

/-- Changes the disk. When this fails the disk stays as it is. -/
def changing (mishap : Option Mishap) (operation : Disk → Except IoFault Disk) (d : Disk) :
    Except IoFault Unit × Disk :=
  match d.asking mishap operation with
  | .ok d' => (.ok (), d')
  | .error fault => (.error fault, d)

/-- Writes a file. When this goes wrong halfway, a part of the content has been written. -/
def writing (mishap : Option Mishap) (path : String) (content : Bytes) (d : Disk) :
    Except IoFault Unit × Disk :=
  match mishap with
  | none => d.changing none (write path content)
  | some m =>
    match m.written with
    | none => (.error m.fault, d)
    | some n =>
      match d.changing none (write path (content.take n)) with
      | (.ok _, d') => (.error m.fault, d')
      | (.error fault, d') => (.error fault, d')

end Disk

end Provenance
