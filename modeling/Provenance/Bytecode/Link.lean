import Provenance.Address
import Provenance.Dictionary
import Provenance.Text.Offset

/-!
# Linking libraries

Compiled code holds a placeholder of the width of an address wherever it refers to a library. The
deployed code tells the addresses: those at the places of the placeholders. Linking puts them in.
-/

namespace Provenance.Bytecode

open Text

/-- Every placeholder starts with this mark. -/
def mark : List Char := ['_', '_', '$']

/-- Bytes taken by a placeholder. -/
def placeholderWidth : Nat := 40

/-- Why a template cannot be linked. -/
inductive LinkError where
  /-- The deployed code of `length` bytes ends before the placeholder does. -/
  | outOfRange (placeholder : List Char) (offset length : Nat)
  /-- The deployed code holds no address at the placeholder. -/
  | notAddress (placeholder : List Char) (offset : Nat) (found : List Char)
  /-- The template ends inside the placeholder. -/
  | truncated (offset : Nat)
  deriving DecidableEq, Repr

/-- The message of an error. -/
def LinkError.message : LinkError → String
  | .outOfRange placeholder offset length =>
    s!"library placeholder {String.ofList placeholder} at offset {offset} is beyond the end of the "
      ++ s!"on-chain bytecode ({length} hex chars)"
  | .notAddress placeholder offset found =>
    s!"on-chain bytes {String.ofList found} at offset {offset} are not a library address for "
      ++ s!"placeholder {String.ofList placeholder}"
  | .truncated offset => s!"library placeholder at offset {offset} is truncated"

/-- The addresses of placeholders, by increasing placeholder. -/
abbrev Addresses := List (List Char × List Char)

/-- Reads the address of a placeholder at its offset in the deployed code. -/
def addressAt (actual placeholder : List Char) (offset : Nat) : Except LinkError (List Char) :=
  match slice? offset (offset + placeholderWidth) actual with
  | none => .error (.outOfRange placeholder offset (byteLength actual))
  | some found =>
    if found.all Hex.isDigit then .ok found else .error (.notAddress placeholder offset found)

/-- A placeholder, where it was met first, and its address. -/
structure Resolved where
  placeholder : List Char
  offset : Nat
  address : List Char
  deriving DecidableEq, Repr

/-- The placeholders in `rest`, the template from byte `cursor` on, that are not among the `known`
ones, up to the first that has no address. -/
def scanFrom (actual : List Char) : (fuel : Nat) → (cursor : Nat) → (rest : List Char) →
    (known : List (List Char)) → List Resolved × Option LinkError
  | 0, _, _, _ => ([], none)
  | fuel + 1, cursor, rest, known =>
    match find? mark rest with
    | none => ([], none)
    | some distance =>
      let offset := cursor + distance
      match (drop? distance rest).bind (splitAt? placeholderWidth) with
      | none => ([], some (.truncated offset))
      | some (placeholder, rest') =>
        if known.contains placeholder then
          scanFrom actual fuel (offset + placeholderWidth) rest' known
        else
          match addressAt actual placeholder offset with
          | .error e => ([], some e)
          | .ok address =>
            let (more, e) :=
              scanFrom actual fuel (offset + placeholderWidth) rest' (placeholder :: known)
            (⟨placeholder, offset, address⟩ :: more, e)

/-- The placeholders of a template in the order in which they are met, each with the address that
the deployed code holds at the same offset, up to the first that has none. -/
def scan (template actual : List Char) : List Resolved × Option LinkError :=
  scanFrom actual (template.length + 1) 0 template []

/-- The address of each placeholder of a template. -/
def collect (template actual : List Char) : Except LinkError Addresses :=
  match scan template actual with
  | (found, none) => .ok (Dictionary.ofList (found.map fun r => (r.placeholder, r.address)))
  | (_, some e) => .error e

/-- Puts each address in place of its placeholder, one placeholder after the other. -/
def substitute (addresses : Addresses) (template : List Char) : List Char :=
  addresses.foldl (fun code entry => replaceAll entry.1 entry.2 code) template

/-- Replaces the placeholders of a template by the addresses that the deployed code holds at their
places. -/
def link (template actual : List Char) : Except LinkError (List Char) :=
  (collect template actual).map fun addresses => substitute addresses template

end Provenance.Bytecode
