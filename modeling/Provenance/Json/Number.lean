/-!
# Numbers of a document

A number is an integer that fits 64 bits, signed or not, or a double. This module turns the written
parts of a number into its value (`Numeral.value`) and a double into its text (`Double.text`): the
fewest digits that read back as the same double, the nearest to its value of those.
-/

namespace Provenance.Json

/-- A double, by its bits. -/
structure Double where
  bits : UInt64
  deriving DecidableEq, Repr

/-- A number of a document. -/
inductive Number where
  | integer (n : Int)
  | double (x : Double)
  deriving DecidableEq, Repr

/-- The greatest unsigned integer of 64 bits. -/
def maxUnsigned : Nat := Nat.pow 2 64 - 1

/-- Whether an integer fits 64 bits without sign. -/
def isUnsigned (n : Int) : Bool := 0 ≤ n && n ≤ maxUnsigned

/-- Whether an integer fits 64 bits with sign. -/
def isSigned (n : Int) : Bool := -(Nat.pow 2 63) ≤ n && n < Nat.pow 2 63

/-- A natural number in decimal digits. -/
def naturalText (n : Nat) : List Char := Nat.toDigits 10 n

/-- An integer in decimal digits. -/
def integerText : Int → List Char
  | .ofNat n => naturalText n
  | .negSucc n => '-' :: naturalText (n + 1)

/-! ## From written parts to a value -/

/-- The parts of a written number. -/
structure Numeral where
  negative : Bool
  /-- Digits before the point. -/
  whole : List Nat
  /-- Digits after the point, none when there is no point. -/
  fraction : List Nat
  /-- Whether the exponent is negative, and its digits. -/
  exponent : Option (Bool × List Nat)
  deriving DecidableEq, Repr

/-- Takes digits into a significand as long as it fits 64 bits, and gives the digits left over. -/
def gatherDigits (significand : Nat) : List Nat → Nat × List Nat
  | [] => (significand, [])
  | d :: ds =>
    if significand * 10 + d ≤ maxUnsigned then gatherDigits (significand * 10 + d) ds
    else (significand, d :: ds)

/-- The greatest exponent that is told apart. -/
def maxExponent : Nat := Nat.pow 2 31 - 1

/-- The value of exponent digits, or the number of digits that were needed to see it too large. -/
def exponentValue (value taken : Nat) : List Nat → Except Nat Nat
  | [] => .ok value
  | d :: ds =>
    if value * 10 + d ≤ maxExponent then exponentValue (value * 10 + d) (taken + 1) ds
    else .error (taken + 1)

/-- A power of ten up to the 308th, the nearest double. -/
private def powerOfTen (k : Nat) : Float := Float.ofScientific 1 false k

/-- Scales a double by a power of ten, in steps of at most 308 places; `none` when it leaves the
range of doubles. -/
def scale : (fuel : Nat) → Float → Int → Option Float
  | 0, f, _ => some f
  | fuel + 1, f, exponent =>
    if exponent.natAbs ≤ 308 then
      if exponent ≥ 0 then
        let scaled := f * powerOfTen exponent.natAbs
        if scaled.isInf then none else some scaled
      else some (f / powerOfTen exponent.natAbs)
    else if f == 0 then some f
    else if exponent ≥ 0 then none
    else scale fuel (f / powerOfTen 308) (exponent + 308)

/-- The double `significand * 10 ^ exponent`, the significand rounded to a double before it is
scaled. -/
def doubleOfParts (negative : Bool) (significand : Nat) (exponent : Int) : Option Double :=
  (scale 8 significand.toUInt64.toFloat exponent).map fun f =>
    ⟨(if negative then -f else f).toBits⟩

/-- Why a numeral has no value: it is out of range, as seen at its end or after some digits of its
exponent. -/
inductive OutOfRange where
  | atEnd
  | inExponent (digits : Nat)
  deriving DecidableEq, Repr

/-- The value of a numeral. Integers that fit stay integers; negative zero and all else is a
double. -/
def Numeral.value (n : Numeral) : Except OutOfRange Number :=
  let (whole, left) := gatherDigits 0 n.whole
  let isInteger := left.isEmpty && n.fraction.isEmpty && n.exponent.isNone
  if isInteger && !n.negative then .ok (.integer whole)
  else if isInteger && 0 < whole && whole ≤ Nat.pow 2 63 then .ok (.integer (-whole))
  else
    let (significand, unread) := gatherDigits whole n.fraction
    let places : Int := left.length - (n.fraction.length - unread.length : Nat)
    let finish (exponent : Int) : Except OutOfRange Number :=
      match doubleOfParts n.negative significand exponent with
      | some x => .ok (.double x)
      | none => .error .atEnd
    match n.exponent with
    | none => finish places
    | some (negative, digits) =>
      match exponentValue 0 0 digits with
      | .ok e => finish (if negative then places - e else places + e)
      | .error taken =>
        if significand = 0 || negative then finish (-100000)
        else .error (.inExponent taken)

/-! ## From a double to its text -/

/-- A positive double as `mantissa * 2 ^ exponent`, with the distance to the next smaller double
halved when `lowerIsCloser`. -/
structure Binary where
  mantissa : Nat
  exponent : Int
  lowerIsCloser : Bool

/-- The value of a finite double without its sign. -/
def Double.binary (x : Double) : Binary :=
  let fraction : Nat := x.bits.toNat % Nat.pow 2 52
  let biased : Nat := x.bits.toNat / Nat.pow 2 52 % Nat.pow 2 11
  if biased = 0 then ⟨fraction, -1074, false⟩
  else ⟨fraction + Nat.pow 2 52, (biased : Int) - 1075, fraction = 0 && 1 < biased⟩

/-- Whether the sign bit is set. -/
def Double.isNegative (x : Double) : Bool := Nat.pow 2 63 ≤ x.bits.toNat

/-- Decimal digits and the place of the first: `digits = [d₁, d₂, …]` stands for
`d₁.d₂… * 10 ^ exponent`. -/
structure Decimal where
  digits : List Char
  exponent : Int

/-- The place of the first digit of `num / den`, which is positive. -/
def firstPlace (num den : Nat) : Int :=
  if den ≤ num then (naturalText (num / den)).length - 1
  else -(((List.range 400).find? fun k => den ≤ num * Nat.pow 10 k).getD 0 : Nat)

/-- The fewest digits that read back as a positive double, tried on grids of one digit, two digits,
and so on. On each grid the two neighbours of the value are tried, the nearer one first. -/
def shortestDigits (b : Binary) : Decimal :=
  -- everything in quarters of the last binary place, as a fraction with denominator `den`
  let up := Nat.pow 2 (b.exponent - 2).toNat
  let den := Nat.pow 2 (2 - b.exponent).toNat
  let value := 4 * b.mantissa * up
  let low := (4 * b.mantissa - (if b.lowerIsCloser then 1 else 2)) * up
  let high := (4 * b.mantissa + 2) * up
  let inside := b.mantissa % 2 = 0
  let place := firstPlace value den
  let reads (num unit : Nat) : Bool :=
    -- `num / unit` against the interval
    if inside then low * unit ≤ num * den && num * den ≤ high * unit
    else low * unit < num * den && num * den < high * unit
  let candidate (n : Nat) : Option Nat :=
    -- the grid `10 ^ (place + 1 - n)` as `up10 / down10`
    let shift : Int := place + 1 - n
    let up10 := Nat.pow 10 shift.toNat
    let down10 := Nat.pow 10 (-shift).toNat
    let below := value * down10 / (den * up10)
    let above := below + 1
    let distanceBelow := value * down10 - below * (den * up10)
    let distanceAbove := above * (den * up10) - value * down10
    let (near, far) :=
      if distanceBelow < distanceAbove || distanceBelow = distanceAbove && below % 2 = 0 then
        (below, above)
      else (above, below)
    if reads (near * up10) down10 then some near
    else if reads (far * up10) down10 then some far
    else none
  let found := (List.range 18).findSome? fun n =>
    if n = 0 then none else (candidate n).map fun d => (n, d)
  match found with
  | none => ⟨['0'], 0⟩
  | some (n, d) =>
    let text := naturalText d
    let trimmed := (text.reverse.dropWhile (· = '0')).reverse
    ⟨if trimmed.isEmpty then ['0'] else trimmed, place + (text.length - n : Nat)⟩

/-- The places that are written without an exponent: from `10 ^ -5` to below `10 ^ 16`. -/
def isPositional (exponent : Int) : Bool := -5 ≤ exponent && exponent < 16

/-- Digits with a point behind the first `places` of them, zeros filled in. -/
def positionalText (digits : List Char) (places : Nat) : List Char :=
  if digits.length ≤ places then
    digits ++ List.replicate (places - digits.length) '0' ++ ['.', '0']
  else digits.take places ++ '.' :: digits.drop places

/-- The text of a decimal: positional between `10 ^ -5` and `10 ^ 16`, with an exponent beyond. -/
def Decimal.text (d : Decimal) : List Char :=
  if isPositional d.exponent then
    if d.exponent < 0 then
      '0' :: '.' :: List.replicate ((-d.exponent).toNat - 1) '0' ++ d.digits
    else positionalText d.digits (d.exponent.toNat + 1)
  else
    let mantissa := match d.digits with
      | [] => ['0']
      | [c] => [c]
      | c :: cs => c :: '.' :: cs
    let sign := if d.exponent < 0 then '-' else '+'
    mantissa ++ 'e' :: sign :: naturalText d.exponent.natAbs

/-- The text of a finite double. -/
def Double.text (x : Double) : List Char :=
  let sign := if x.isNegative then ['-'] else []
  let b := x.binary
  if b.mantissa = 0 then sign ++ ['0', '.', '0'] else sign ++ (shortestDigits b).text

/-- The text of a number. -/
def Number.text : Number → List Char
  | .integer n => integerText n
  | .double x => x.text

end Provenance.Json
