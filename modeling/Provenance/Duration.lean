/-!
# Durations

Lengths of time and how they are shown: `1.5ms`, `120s`.
-/

namespace Provenance

/-- A length of time in nanoseconds. -/
structure Duration where
  nanos : Nat
  deriving DecidableEq, Repr

namespace Duration

/-- A number of seconds. -/
def ofSeconds (n : Nat) : Duration := ⟨n * 1000000000⟩

/-- A number of milliseconds. -/
def ofMillis (n : Nat) : Duration := ⟨n * 1000000⟩

/-- The fraction `part` of a unit of `10 ^ places`, with a point before it and without zeros at its
end. -/
def fractionText (part places : Nat) : List Char :=
  let digits := Nat.toDigits 10 part
  let padded := List.replicate (places - digits.length) '0' ++ digits
  if part = 0 then [] else '.' :: (padded.reverse.dropWhile (· = '0')).reverse

/-- A duration in the largest unit of which it has one. -/
def text (d : Duration) : String :=
  let inUnit (unit places : Nat) (name : String) : String :=
    toString (d.nanos / unit) ++ String.ofList (fractionText (d.nanos % unit) places) ++ name
  if 1000000000 ≤ d.nanos then inUnit 1000000000 9 "s"
  else if 1000000 ≤ d.nanos then inUnit 1000000 6 "ms"
  else if 1000 ≤ d.nanos then inUnit 1000 3 "µs"
  else inUnit 1 0 "ns"

end Duration

end Provenance
