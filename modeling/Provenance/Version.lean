import Provenance.Text.Blank

/-!
# Compiler versions

A version is the name under which a compiler binary is published and kept.
-/

namespace Provenance.Version

/-- The version as distributions write it: without blanks around it and with a `v` in front. -/
def normalize (version : List Char) : List Char :=
  match Text.trim version with
  | 'v' :: rest => 'v' :: rest
  | core => 'v' :: core

/-- Whether two dots follow each other somewhere in a text. -/
def hasTwoDots : List Char → Bool
  | '.' :: '.' :: _ => true
  | _ :: rest => hasTwoDots rest
  | [] => false

/-- Whether a version can name a file of the compiler directory: one visible path component that
leads nowhere else. -/
def isSafe (version : List Char) : Bool :=
  !version.isEmpty && version.head? ≠ some '.' && !hasTwoDots version &&
    version.all fun c => c ≠ '/' && c ≠ '\\'

end Provenance.Version
