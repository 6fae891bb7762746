import Provenance.Text.Blank
import Provenance.Text.Lowercase
import Provenance.Text.Split
import Provenance.Url.Percent
import Provenance.Url.Punycode

/-!
# Host labels

A host name is a list of labels with dots between. A name in any letters has a form in ASCII: wide
letters become narrow, capitals small, some characters are passed over, and a label in which there still
are other letters is written in a code behind a mark.
-/

namespace Provenance.Url

open Text (splitOn joinWith)

/-- Characters that may not stand in any host. -/
def isForbidden (c : Char) : Bool :=
  ['\x00', '\t', '\n', '\r', ' ', '#', '/', ':', '<', '>', '?', '@', '[', '\\', ']', '^',
    '|'].contains c

/-- Characters that may not stand in a host name. -/
def isForbiddenInName (c : Char) : Bool := isForbidden c || isControl c || c = '%'

/-- Code points that are passed over in host names. -/
def passedOver : List (Nat × Nat) := [
  (0xAD, 0xAD), (0x34F, 0x34F), (0x180B, 0x180D), (0x200B, 0x200B), (0x2060, 0x2060),
  (0x2064, 0x2064), (0xFE00, 0xFE0F), (0xFEFF, 0xFEFF), (0xE0100, 0xE01EF)]

/-- Code points beyond ASCII that no host name may hold: controls, marks of direction, joiners,
separators, and those that are private or no characters. -/
def refused : List (Nat × Nat) := [
  (0x80, 0x9F), (0x200C, 0x200F), (0x2028, 0x202E), (0x2061, 0x2063), (0x2065, 0x206F),
  (0xE000, 0xF8FF), (0xFDD0, 0xFDEF), (0xFFF9, 0xFFFF), (0xE0000, 0xE00FF), (0xE01F0, 0x10FFFF)]

/-- The dot that a character stands for, or the narrow form of a wide letter. -/
def narrow (c : Char) : Char :=
  let n := c.toNat
  if n = 0x3002 || n = 0xFF61 then '.'
  else if 0xFF01 ≤ n && n ≤ 0xFF5E then Char.ofNat (n - 0xFEE0)
  else c

/-- A host name as it is compared: narrow, in small letters, without what is passed over. -/
def foldName (domain : List Char) : List Char :=
  ((domain.filter fun c => !Text.inRanges c.toNat passedOver).map narrow).flatMap Text.smallForm

/-- Whether a label beyond ASCII may hold a character. -/
def isAdmitted (c : Char) : Bool :=
  if c.toNat < 0x80 then !isForbiddenInName c
  else !Text.inRanges c.toNat refused && !Text.isBlank c

/-- The mark of labels that are written in code. -/
def labelMark : List Char := ['x', 'n', '-', '-']

/-- Whether a character is beyond ASCII. -/
def isForeign (c : Char) : Bool := 0x80 ≤ c.toNat

/-- Whether a label in code stands for a label that is written so. -/
def isCoded (label : List Char) : Bool :=
  match Punycode.decode (label.drop labelMark.length) with
  | some decoded =>
    decoded.any isForeign && decoded.all isAdmitted && foldName decoded = decoded &&
      labelMark ++ Punycode.encode decoded = label
  | none => false

/-- The form in ASCII of a label in small letters. -/
def asciiLabel? (label : List Char) : Option (List Char) :=
  if !label.all isAdmitted then none
  else if label.any isForeign then some (labelMark ++ Punycode.encode label)
  else if labelMark.isPrefixOf label && !isCoded label then none
  else some label

/-- The form in ASCII of a host name. -/
def asciiName? (domain : List Char) : Option (List Char) :=
  ((splitOn '.' (foldName domain)).mapM asciiLabel?).map (joinWith '.')

end Provenance.Url
