/-!
# Faults of the file system

What can go wrong when files are read, written or run, with the texts in which it is reported.
-/

namespace Provenance

/-- Why an operation on a file, a process or a socket failed. -/
inductive IoFault where
  | notFound
  | permissionDenied
  | alreadyExists
  | notDirectory
  | isDirectory
  | brokenPipe
  | nameTooLong
  | directoryNotEmpty
  | addressInUse
  | addressNotAvailable
  | execFormat
  | busy
  /-- The path holds the character that ends paths. -/
  | nulInName
  /-- The file is no text. -/
  | notText
  /-- Anything else, as it is reported. -/
  | other (text : String)
  deriving DecidableEq, Repr

namespace IoFault

/-- Number, class and text of the faults that the system numbers. -/
def system? : IoFault → Option (Nat × String × String)
  | .notFound => some (2, "NotFound", "No such file or directory")
  | .permissionDenied => some (13, "PermissionDenied", "Permission denied")
  | .busy => some (16, "ResourceBusy", "Device or resource busy")
  | .alreadyExists => some (17, "AlreadyExists", "File exists")
  | .notDirectory => some (20, "NotADirectory", "Not a directory")
  | .isDirectory => some (21, "IsADirectory", "Is a directory")
  | .brokenPipe => some (32, "BrokenPipe", "Broken pipe")
  | .nameTooLong => some (36, "InvalidFilename", "File name too long")
  | .directoryNotEmpty => some (39, "DirectoryNotEmpty", "Directory not empty")
  | .addressInUse => some (98, "AddrInUse", "Address already in use")
  | .addressNotAvailable => some (99, "AddrNotAvailable", "Cannot assign requested address")
  | .execFormat => some (8, "Uncategorized", "Exec format error")
  | .nulInName | .notText | .other _ => none

/-- The message of a fault. -/
def message : IoFault → String
  | .nulInName => "file name contained an unexpected NUL byte"
  | .notText => "stream did not contain valid UTF-8"
  | .other text => text
  | fault =>
    match fault.system? with
    | some (code, _, text) => s!"{text} (os error {code})"
    | none => ""

end IoFault

end Provenance
