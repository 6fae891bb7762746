/-!
# Punycode

Labels of host names beyond ASCII are written with the letters, digits and the hyphen: the ASCII
characters first, then where each other character goes, in increasing order of code point.
-/

namespace Provenance.Url.Punycode

/-- The digit of a value below 36. -/
def digitChar (d : Nat) : Char := if d < 26 then Char.ofNat (97 + d) else Char.ofNat (22 + d)

/-- The value of a digit. -/
def digitValue? (c : Char) : Option Nat :=
  let n := c.toNat
  if 97 ≤ n ∧ n ≤ 122 then some (n - 97)
  else if 65 ≤ n ∧ n ≤ 90 then some (n - 65)
  else if 48 ≤ n ∧ n ≤ 57 then some (n - 22)
  else none

/-- The threshold of the digit at place `k`, 36 for the first, 72 for the second and so on. -/
def threshold (k bias : Nat) : Nat :=
  if k ≤ bias + 1 then 1 else if bias + 26 ≤ k then 26 else k - bias

/-- Divides by 35 until at most 455 is left, counting 36 for each division. -/
def damp : (fuel : Nat) → (delta k : Nat) → Nat × Nat
  | 0, delta, k => (delta, k)
  | fuel + 1, delta, k => if 455 < delta then damp fuel (delta / 35) (k + 36) else (delta, k)

/-- The bias after a number was written. -/
def adapt (delta points : Nat) (first : Bool) : Nat :=
  let halved := if first then delta / 700 else delta / 2
  let (delta, k) := damp 64 (halved + halved / points) 0
  k + 36 * delta / (delta + 38)

/-- A number in digits of variable base. -/
def encodeNumber (bias : Nat) : (fuel : Nat) → (k q : Nat) → List Char
  | 0, _, _ => []
  | fuel + 1, k, q =>
    let t := threshold k bias
    if q < t then [digitChar q]
    else digitChar (t + (q - t) % (36 - t)) :: encodeNumber bias fuel (k + 36) ((q - t) / (36 - t))

/-- The state of an encoder: what was written, and how far it has come. -/
structure State where
  written : List Char
  delta : Nat
  bias : Nat
  handled : Nat

/-- Passes one character of the label while characters of code `code` are placed. -/
def passChar (basic code : Nat) (s : State) (c : Char) : State :=
  if c.toNat < code then { s with delta := s.delta + 1 }
  else if c.toNat = code then
    { written := s.written ++ encodeNumber s.bias 64 36 s.delta
      delta := 0
      bias := adapt s.delta (s.handled + 1) (s.handled = basic)
      handled := s.handled + 1 }
  else s

/-- Places the characters of the given codes, in increasing order. -/
def place (label : List Char) (basic : Nat) : (codes : List Nat) → (next : Nat) → State → State
  | [], _, s => s
  | code :: codes, next, s =>
    let s := { s with delta := s.delta + (code - next) * (s.handled + 1) }
    let s := label.foldl (passChar basic code) s
    place label basic codes (code + 1) { s with delta := s.delta + 1 }

/-- The label in ASCII, without the mark of such labels. -/
def encode (label : List Char) : List Char :=
  let basic := label.filter (·.toNat < 0x80)
  let codes := ((label.filter (0x80 ≤ ·.toNat)).map Char.toNat).mergeSort.eraseDups
  let start : State := ⟨basic ++ (if basic.isEmpty then [] else ['-']), 0, 72, basic.length⟩
  (place label basic.length codes 128 start).written

/-- Reads a number and gives what follows it. -/
def decodeNumber (bias : Nat) : List Char → (k weight value : Nat) → Option (Nat × List Char)
  | [], _, _, _ => none
  | c :: rest, k, weight, value =>
    match digitValue? c with
    | none => none
    | some d =>
      let t := threshold k bias
      if d < t then some (value + d * weight, rest)
      else decodeNumber bias rest (k + 36) (weight * (36 - t)) (value + d * weight)

/-- Puts the characters that numbers announce into the label. -/
def decodeWithin : (fuel : Nat) → (bias code index : Nat) → (label : List Char) → List Char →
    Option (List Char)
  | _, _, _, _, label, [] => some label
  | 0, _, _, _, _, _ => none
  | fuel + 1, bias, code, index, label, rest =>
    match decodeNumber bias rest 36 1 index with
    | none => none
    | some (reached, rest) =>
      let points := label.length + 1
      let code := code + reached / points
      if code < 0xD800 ∨ (0xDFFF < code ∧ code < 0x110000) then
        decodeWithin fuel (adapt (reached - index) points (index = 0)) code (reached % points + 1)
          (label.insertIdx (reached % points) (Char.ofNat code)) rest
      else none

/-- The label that an ASCII form without its mark stands for. -/
def decode (cs : List Char) : Option (List Char) :=
  let tail := (cs.reverse.takeWhile (· ≠ '-')).reverse
  let basic := cs.take (cs.length - tail.length - 1)
  if basic.any (0x80 ≤ ·.toNat) then none
  else decodeWithin (tail.length + 1) 72 128 0 basic tail

end Provenance.Url.Punycode
