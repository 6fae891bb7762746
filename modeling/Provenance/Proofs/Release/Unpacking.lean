import Provenance.Proofs.Archive.Members
import Provenance.Proofs.Archive.Stored
import Provenance.Release.Install

/-!
# What downloaded files hold

A file of a release is the binary itself, or an archive in which the binary is a file (`Release.Unpacks`). Only
such a file is unpacked, and each is (`Release.binaryOf_eq_ok_iff`). Of a file in an archive all bytes that its
header announces come out, unless the archive ends before: then it is those that there are.
-/

namespace Provenance.Release

open Archive

/-- A binary is what a downloaded file of a name is or holds. -/
inductive Unpacks (name : String) (payload : Bytes) : Bytes → Prop
  | plain (plain : ¬ ".tar.gz".toList <:+ name.toList) : Unpacks name payload payload
  /-- A file of the archive, of which everything is there that its header announces. -/
  | whole {size rest} (archive : ".tar.gz".toList <:+ name.toList)
    (finds : Finds "resolc" (gunzip payload).bytes size rest) (enough : size ≤ rest.length) :
    Unpacks name payload (rest.take size)
  /-- What there is of a file of the archive, which ends before the file does. -/
  | cut {size rest} (archive : ".tar.gz".toList <:+ name.toList)
    (finds : Finds "resolc" (gunzip payload).bytes size rest) (short : rest.length < size)
    (ended : (gunzip payload).flaw = none) : Unpacks name payload rest

variable {payload binary : Bytes}

theorem extractBinary_eq_ok_iff {asset : String} : extractBinary payload asset = .ok binary ↔
    ∃ size rest, Finds "resolc" (gunzip payload).bytes size rest ∧
      (⟨rest, (gunzip payload).flaw⟩ : Stream).read size = .ok binary := by
  have hextract : extractBinary payload asset = .ok binary ↔
      findFile "resolc" ((gunzip payload).bytes.length + 1) (gunzip payload) = .ok (some binary) := by
    have hfind : findFile "resolc" ((gunzip payload).bytes.length + 1) (gunzip payload)
        = extract defaultBinary payload := rfl
    rw [hfind, extractBinary]
    rcases extract defaultBinary payload with flaw | - | found <;> simp
  rw [hextract]
  exact findFile_eq_ok_some_iff (Nat.lt_succ_self _)

/-- What comes of a downloaded file is the binary that it is or holds. -/
theorem binaryOf_eq_ok_iff {asset : Asset} :
    binaryOf asset payload = .ok binary ↔ Unpacks asset.name payload binary := by
  unfold binaryOf
  by_cases harchive : ".tar.gz".toList <:+ asset.name.toList
  · rw [if_pos (by simpa [archiveSuffix] using harchive), extractBinary_eq_ok_iff]
    constructor
    · rintro ⟨size, rest, hfinds, hread⟩
      rcases Stream.read_eq_ok_iff.1 hread with ⟨henough, rfl⟩ | ⟨hshort, hended, rfl⟩
      · exact .whole harchive hfinds henough
      · exact .cut harchive hfinds hshort hended
    · intro h
      cases h with
      | plain hplain => exact absurd harchive hplain
      | whole _ finds enough => exact ⟨_, _, finds, Stream.read_eq_ok_iff.2 (.inl ⟨enough, rfl⟩)⟩
      | cut _ finds short ended => exact ⟨_, _, finds, Stream.read_eq_ok_iff.2 (.inr ⟨short, ended, rfl⟩)⟩
  · rw [if_neg (by simpa [archiveSuffix] using harchive)]
    constructor
    · rintro ⟨⟩
      exact .plain harchive
    · intro h
      cases h with
      | plain => rfl
      | whole archive | cut archive => exact absurd archive harchive

end Provenance.Release
