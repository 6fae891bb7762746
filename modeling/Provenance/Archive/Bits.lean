import Provenance.Text.Utf8

/-!
# Reading bits

Bits are taken from bytes, the lowest bit of a byte first.
-/

namespace Provenance.Archive

/-- Bits that are still to be read. -/
structure Bits where
  /-- The number written by the bits left of the last byte that was begun. -/
  held : Nat
  /-- How many these bits are. -/
  count : Nat
  rest : Bytes
  deriving Repr

namespace Bits

/-- The bits of some bytes. -/
def ofBytes (bytes : Bytes) : Bits := ⟨0, 0, bytes⟩

/-- Reads `n` bits, where `count` bits are held and further bytes follow. -/
def takeFrom (n : Nat) (held count : Nat) : Bytes → Option (Nat × Bits)
  | [] => if n ≤ count then some (held % Nat.pow 2 n, ⟨held / Nat.pow 2 n, count - n, []⟩) else none
  | b :: rest =>
    if n ≤ count then some (held % Nat.pow 2 n, ⟨held / Nat.pow 2 n, count - n, b :: rest⟩)
    else takeFrom n (held + b.toNat * Nat.pow 2 count) (count + 8) rest

/-- Reads a number of `n` bits. -/
def take? (n : Nat) (b : Bits) : Option (Nat × Bits) := takeFrom n b.held b.count b.rest

/-- The bytes that follow the byte that was begun. -/
def bytes (b : Bits) : Bytes :=
  (List.range (b.count / 8)).map
    (fun i => (b.held / Nat.pow 2 (b.count % 8 + 8 * i) % 256).toUInt8) ++ b.rest

/-- The number of bits left. -/
def length (b : Bits) : Nat := b.count + 8 * b.rest.length

end Bits

end Provenance.Archive
