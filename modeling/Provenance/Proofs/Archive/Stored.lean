import Mathlib.Tactic.SplitIfs
import Provenance.Archive.Gzip

/-!
# Files that are stored as they are

A compressed file may hold its data as it is, in one block. Then the data is read back, if the trailer is right
(`Archive.gunzip_stored`).
-/

namespace Provenance.Archive

/-- A number in two bytes, the lower first. -/
def twoBytes (n : Nat) : Bytes := [(n % 256).toUInt8, (n / 256).toUInt8]

/-- The file that holds data in one block as it is, with a checksum in four bytes. -/
def stored (data sum : Bytes) : Bytes :=
  [0x1F, 0x8B, 8, 0, 0, 0, 0, 0, 0, 0xFF] ++ 1 ::
    (twoBytes data.length ++ (twoBytes (65535 - data.length) ++ (data ++ (sum ++ (twoBytes data.length ++ [0, 0])))))

variable {data sum rest : Bytes} {n : Nat}

theorem toNat_toUInt8 (h : n < 256) : n.toUInt8.toNat = n := by
  simp [Nat.toUInt8, Nat.mod_eq_of_lt h]

theorem twoBytes_toNat (h : n < 65536) : (n % 256).toUInt8.toNat + 256 * (n / 256).toUInt8.toNat = n := by
  rw [toNat_toUInt8 (by omega), toNat_toUInt8 (by omega)]
  omega

/-- No byte is left of the one that was begun. -/
theorem bytes_of_count_lt {held count : Nat} (h : count < 8) : (⟨held, count, rest⟩ : Bits).bytes = rest := by
  simp [Bits.bytes, Nat.div_eq_of_lt h]

/-- A stored block is read as it is. -/
theorem readStored_of_bytes {bits : Bits} (h : data.length < 65536)
    (hbytes : bits.bytes = twoBytes data.length ++ (twoBytes (65535 - data.length) ++ (data ++ rest))) :
    readStored #[] bits = (data.toArray, .ok (.ofBytes rest)) := by
  unfold readStored
  rw [hbytes]
  simp only [twoBytes, List.cons_append, List.nil_append]
  rw [twoBytes_toNat h, twoBytes_toNat (by omega), if_neg (by omega)]
  simp

theorem inflate_stored (h : data.length < 65536) :
    inflate (1 :: (twoBytes data.length ++ (twoBytes (65535 - data.length) ++ (data ++ rest))))
      = (data.toArray, .complete rest) := by
  generalize hbytes : twoBytes data.length ++ (twoBytes (65535 - data.length) ++ (data ++ rest)) = bytes
  -- the first three bits say that the block is the last one and stored
  have hbits : readBits 3 (.ofBytes (1 :: bytes)) = .ok (1, ⟨0, 5, bytes⟩) := by
    cases bytes <;> simp [readBits, Bits.take?, Bits.ofBytes, Bits.takeFrom]
  have hread : readStored #[] ⟨0, 5, bytes⟩ = (data.toArray, .ok (.ofBytes rest)) :=
    readStored_of_bytes h (hbytes ▸ bytes_of_count_lt (by decide))
  rw [inflate, readBlocks, hbits]
  dsimp only
  rw [readBlock, hread]
  dsimp only
  rw [Bits.ofBytes, bytes_of_count_lt (by decide)]
  rfl

/-- Data that is stored as it is is read back. -/
theorem gunzip_stored (h : data.length < 65536) (hsum : sum.length = 4)
    (hchecksum : littleEndian sum = checksum data) : gunzip (stored data sum) = ⟨data, none⟩ := by
  have hheader : skipHeader (stored data sum) = .ok (1 :: (twoBytes data.length ++
      (twoBytes (65535 - data.length) ++ (data ++ (sum ++ (twoBytes data.length ++ [0, 0])))))) := rfl
  have hsize : littleEndian (twoBytes data.length ++ [0, 0]) = data.length := by
    simp only [twoBytes, littleEndian, List.cons_append, List.nil_append, List.foldr_cons, List.foldr_nil]
    rw [toNat_toUInt8 (by omega), toNat_toUInt8 (by omega)]
    show data.length % 256 + 256 * (data.length / 256 + 256 * (0 + 256 * (0 + 256 * 0))) = data.length
    omega
  have htrailer : trailerFlaw data (sum ++ (twoBytes data.length ++ [0, 0])) = none := by
    have hlength : ¬ (sum ++ (twoBytes data.length ++ [0, 0])).length < 8 := by simp [twoBytes, hsum]
    have hmod : Nat.pow 2 32 = 4294967296 := rfl
    have htake : (twoBytes data.length ++ [0, 0]).take 4 = twoBytes data.length ++ [0, 0] := rfl
    rw [trailerFlaw, if_neg hlength, List.take_left' hsum, List.drop_left' hsum, htake, hchecksum, hsize, hmod,
      Nat.mod_eq_of_lt (by omega)]
    simp
  rw [gunzip, hheader]
  dsimp only
  rw [inflate_stored h]
  dsimp only
  rw [htrailer]

/-! ## Working out checksums -/

/-- Some bits of a checksum as a number, by functions that are worked out at once. -/
def bitsFrom : (count c : Nat) → Nat
  | 0, c => c
  | count + 1, c => bitsFrom count (Nat.xor (Nat.div c 2) (Nat.mul (Nat.mod c 2) 0xEDB88320))

/-- Takes bytes into a checksum as a number, which is worked out before the next byte is taken. -/
def checksumFrom : Bytes → (c : Nat) → Nat
  | [], c => c
  | b :: bytes, c =>
    match bitsFrom 8 (Nat.xor c b.toNat) with
    | 0 => checksumFrom bytes 0
    | c + 1 => checksumFrom bytes (c + 1)

theorem toNat_checksumBit (c : UInt32) :
    (checksumBit c).toNat = c.toNat / 2 ^^^ c.toNat % 2 * 0xEDB88320 := by
  have hshift : (c >>> 1).toNat = c.toNat / 2 := by
    rw [UInt32.toNat_shiftRight]
    exact Nat.shiftRight_eq_div_pow _ 1
  have hodd : c &&& 1 = 1 ↔ c.toNat % 2 = 1 := by
    rw [← UInt32.toNat_inj, UInt32.toNat_and]
    exact (Nat.and_one_is_mod _).symm ▸ Iff.rfl
  unfold checksumBit
  split
  · next h =>
    rw [UInt32.toNat_xor, hshift, hodd.1 h]
    rfl
  · next h =>
    have heven : c.toNat % 2 = 0 := by
      have hne := mt hodd.2 h
      omega
    rw [hshift, heven, Nat.zero_mul, Nat.xor_zero]

theorem toNat_checksumByte (c : UInt32) (b : UInt8) :
    (checksumByte c b).toNat = bitsFrom 8 (c.toNat ^^^ b.toNat) := by
  -- of the numbers that count the bits only their number matters
  have hbits : ∀ (xs : List Nat) (c : UInt32),
      (xs.foldl (fun c _ => checksumBit c) c).toNat = bitsFrom xs.length c.toNat := by
    intro xs
    induction xs with
    | nil => exact fun c => rfl
    | cons x xs ih =>
      intro c
      rw [List.foldl_cons, ih, toNat_checksumBit]
      rfl
  rw [checksumByte, hbits, UInt32.toNat_xor, UInt8.toNat_toUInt32]
  rfl

theorem checksumFrom_eq (bytes : Bytes) (c : UInt32) :
    checksumFrom bytes c.toNat = (bytes.foldl checksumByte c).toNat := by
  induction bytes generalizing c with
  | nil => rfl
  | cons b bytes ih =>
    have hstep : checksumFrom (b :: bytes) c.toNat = checksumFrom bytes (bitsFrom 8 (c.toNat ^^^ b.toNat)) := by
      rw [checksumFrom]
      show (match bitsFrom 8 (c.toNat ^^^ b.toNat) with
        | 0 => checksumFrom bytes 0
        | c + 1 => checksumFrom bytes (c + 1)) = _
      cases bitsFrom 8 (c.toNat ^^^ b.toNat) <;> rfl
    rw [hstep, ← toNat_checksumByte, ih, List.foldl_cons]

theorem checksum_of_checksumFrom {c : UInt32} (h : checksumFrom data 0xFFFFFFFF = c.toNat) :
    checksum data = (c ^^^ 0xFFFFFFFF).toNat := by
  have hfold : data.foldl checksumByte 0xFFFFFFFF = c :=
    UInt32.toNat_inj.1 ((checksumFrom_eq data 0xFFFFFFFF).symm.trans h)
  rw [checksum, hfold]

end Provenance.Archive
