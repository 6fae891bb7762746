import Provenance.Text.Split
import Provenance.Url.Label

/-!
# Hosts

Host names and the two kinds of numbered addresses, as they are written in addresses of the web.
-/

namespace Provenance.Url

open Text (splitOn joinWith)

/-- Why a text is no address. -/
inductive UrlError where
  | emptyHost
  | invalidDomain
  | invalidPort
  | invalidIpv4
  | invalidIpv6
  | invalidHostCharacter
  | noScheme
  deriving DecidableEq, Repr

/-- The message of an error. -/
def UrlError.message : UrlError → String
  | .emptyHost => "empty host"
  | .invalidDomain => "invalid international domain name"
  | .invalidPort => "invalid port number"
  | .invalidIpv4 => "invalid IPv4 address"
  | .invalidIpv6 => "invalid IPv6 address"
  | .invalidHostCharacter => "invalid domain character"
  | .noScheme => "relative URL without a base"

/-! ## Four numbers -/

/-- The value of a digit in some base, if it is one. -/
def digitIn? (base : Nat) (c : Char) : Option Nat :=
  if Hex.isDigit c && Hex.digitValue c < base then some (Hex.digitValue c) else none

/-- A number in decimal, octal (after `0`) or hexadecimal (after `0x`) digits. -/
def ipv4Number? (cs : List Char) : Option Nat :=
  let read (base : Nat) (digits : List Char) : Option Nat :=
    (digits.mapM (digitIn? base)).map (·.foldl (fun n d => n * base + d) 0)
  match cs with
  | [] => none
  | '0' :: 'x' :: digits | '0' :: 'X' :: digits => read 16 digits
  | '0' :: d :: digits => read 8 (d :: digits)
  | digits => read 10 digits

/-- The parts of a host name without an empty last one. -/
def labels (cs : List Char) : List (List Char) :=
  let parts := splitOn '.' cs
  if parts.getLast? = some [] then parts.dropLast else parts

/-- Whether a host name ends in a number, so that it has to be an address of four numbers. -/
def endsInNumber (cs : List Char) : Bool :=
  match (labels cs).getLast? with
  | none => false
  | some last => !last.isEmpty && (last.all Char.isDigit || (ipv4Number? last).isSome)

/-- The address that a host name of numbers stands for. -/
def ipv4 (cs : List Char) : Except UrlError Nat :=
  let parts := labels cs
  if 4 < parts.length then .error .invalidIpv4
  else
    match (parts.mapM ipv4Number?).map List.reverse with
    | none | some [] => .error .invalidIpv4
    | some (last :: others) =>
      if Nat.pow 256 (4 - others.length) ≤ last || others.any (255 < ·) then .error .invalidIpv4
      else
        let weighted := others.reverse.zipIdx.map fun (n, i) => n * Nat.pow 256 (3 - i)
        .ok (last + weighted.foldl (· + ·) 0)

/-- An address of four numbers as text. -/
def ipv4Text (n : Nat) : List Char :=
  joinWith '.' ([3, 2, 1, 0].map fun i => Nat.toDigits 10 (n / Nat.pow 256 i % 256))

/-! ## Eight pieces -/

/-- One to four hexadecimal digits as a number, and what follows them. -/
def hexPiece (cs : List Char) : Nat × Nat × List Char :=
  let digits := (cs.takeWhile Hex.isDigit).take 4
  (Hex.value digits, digits.length, cs.drop digits.length)

/-- A decimal number below 256 without leading zeros, and what follows it. -/
def byteNumber? (cs : List Char) : Option (Nat × List Char) :=
  let digits := cs.takeWhile Char.isDigit
  let n := digits.foldl (fun n c => n * 10 + (c.toNat - 48)) 0
  if digits.isEmpty || (digits.head? = some '0' && 1 < digits.length) || 255 < n then none
  else some (n, cs.drop digits.length)

/-- The last four bytes of an address, written as four numbers. -/
def embeddedIpv4? (cs : List Char) : Option (Nat × Nat) := do
  let (a, rest) ← byteNumber? cs
  let '.' :: rest := rest | none
  let (b, rest) ← byteNumber? rest
  let '.' :: rest := rest | none
  let (c, rest) ← byteNumber? rest
  let '.' :: rest := rest | none
  let (d, rest) ← byteNumber? rest
  if rest.isEmpty then some (a * 256 + b, c * 256 + d) else none

/-- Reads the pieces of an address: those so far, where they were compressed, what is left. -/
def ipv6Within : (fuel : Nat) → (pieces : List Nat) → (compress : Option Nat) → List Char →
    Option (List Nat × Option Nat)
  | 0, _, _, _ => none
  | _ + 1, pieces, compress, [] => some (pieces, compress)
  | fuel + 1, pieces, compress, ':' :: rest =>
    if pieces.length = 8 || compress.isSome then none
    else ipv6Within fuel pieces (some pieces.length) rest
  | fuel + 1, pieces, compress, cs =>
    if pieces.length = 8 then none
    else
      match hexPiece cs with
      | (_, length, '.' :: _) =>
        if length = 0 || 6 < pieces.length then none
        else (embeddedIpv4? cs).map fun (a, b) => (pieces ++ [a, b], compress)
      | (_, _, [':']) => none
      | (value, length, ':' :: rest) =>
        if length = 0 then none else ipv6Within fuel (pieces ++ [value]) compress rest
      | (value, length, []) => if length = 0 then none else some (pieces ++ [value], compress)
      | _ => none

/-- The eight pieces that a text between brackets stands for. -/
def ipv6 (cs : List Char) : Except UrlError (List Nat) :=
  let start := match cs with
    | ':' :: ':' :: rest => some (some 0, rest)
    | ':' :: _ => none
    | [] => none
    | cs => some (none, cs)
  match start with
  | none => .error .invalidIpv6
  | some (compress, rest) =>
    match ipv6Within (rest.length + 1) [] compress rest with
    | none => .error .invalidIpv6
    | some (pieces, none) => if pieces.length = 8 then .ok pieces else .error .invalidIpv6
    | some (pieces, some gap) =>
      if pieces.length ≤ 7 then
        .ok (pieces.take gap ++ List.replicate (8 - pieces.length) 0 ++ pieces.drop gap)
      else .error .invalidIpv6

/-- The number of zeros at the start. -/
private def zeroRun (pieces : List Nat) : Nat := (pieces.takeWhile (· = 0)).length

/-- Where the first of the longest runs of at least two zeros begins, and its length. -/
def longestZeros (pieces : List Nat) : Option (Nat × Nat) :=
  (List.range pieces.length).foldl (fun best i =>
    let run := zeroRun (pieces.drop i)
    match best with
    | some (_, length) => if length < run then some (i, run) else best
    | none => if 2 ≤ run then some (i, run) else none) none

/-- Eight pieces as text, the longest run of zeros left out. -/
def ipv6Text (pieces : List Nat) : List Char :=
  let text (ps : List Nat) : List Char := joinWith ':' (ps.map (Nat.toDigits 16))
  match longestZeros pieces with
  | none => text pieces
  | some (i, length) => text (pieces.take i) ++ ':' :: ':' :: text (pieces.drop (i + length))

/-! ## Host names -/

/-- A host. -/
inductive Host where
  | name (cs : List Char)
  | ipv4 (n : Nat)
  | ipv6 (pieces : List Nat)
  deriving DecidableEq, Repr

/-- A host as text. -/
def Host.text : Host → List Char
  | .name cs => cs
  | .ipv4 n => ipv4Text n
  | .ipv6 pieces => '[' :: ipv6Text pieces ++ [']']

/-- An address between brackets, if the text begins with one. -/
def bracketed? (cs : List Char) : Option (Except UrlError Host) :=
  match cs with
  | '[' :: rest =>
    some (if rest.getLast? = some ']' then (ipv6 rest.dropLast).map .ipv6
      else .error .invalidIpv6)
  | _ => none

/-- The host of an address with a special scheme. -/
def Host.parse (cs : List Char) : Except UrlError Host :=
  match bracketed? cs with
  | some result => result
  | none =>
    match (Text.text? (percentDecode cs)).bind fun s => asciiName? s.toList with
    | none => .error .invalidDomain
    | some domain =>
      if domain.isEmpty then .error .emptyHost
      else if endsInNumber domain then (Provenance.Url.ipv4 domain).map .ipv4
      else .ok (.name domain)

/-- The host of an address with any other scheme. -/
def Host.parseOpaque (cs : List Char) : Except UrlError Host :=
  match bracketed? cs with
  | some result => result
  | none =>
    if cs.any isForbidden then .error .invalidHostCharacter
    else .ok (.name (percentEncode isControl cs))

end Provenance.Url
