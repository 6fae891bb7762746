import Provenance.Proofs.Cache.Knowledge
import Provenance.Proofs.Cache.Sessions
import Provenance.Proofs.Compiler.Course
import Provenance.Proofs.Compiler.Recompilation

/-!
# Only cached compilers are run

Both names by which a file is chosen to be run are told by others: the version of the compiler and the tag of
the toolchain around it. Whatever they are, what is run is a file right in the cache's directory that is not
being written (`Recompiler.recompile_confined`).
-/

namespace Provenance

/-! ## Members of the directory -/

namespace Cache

variable {c : Cache} {version : String}

/-- A memory that calls about any versions have left, wherever they are. -/
def IsLeft (c : Cache) (memory : Memory) : Prop :=
  ∃ disk moves, ((Crowd.start disk).run c moves).shared.memory = memory

/-- Such a memory knows of nothing but files of the cache. -/
theorem IsLeft.path {memory : Memory} (h : c.IsLeft memory) {path : String}
    (hpath : memory.path? version = some path) : path = c.path version := by
  obtain ⟨disk, moves, rfl⟩ := h
  exact ((Knowledge.run disk moves).path version path hpath).1

/-- The compiler that is made sure of is that of the cache. -/
theorem Provision.path {s s' : Shared} {trace : List Effect} {path : String} (hleft : c.IsLeft s.memory)
    (h : Provision c version s trace (.ok path) s') : path = c.path version := by
  cases h with
  | know _ known => exact hleft.path known
  | find | download => rfl

end Cache

/-! ## What is run -/

namespace Backend

variable {ν : Type} {o : Outside ν} {w : World ν}

/-- The arguments of what is run, given where the compiler is. -/
def arguments (compiler : String) : Backend → List String
  | .solc => ["--standard-json"]
  | .revive _ => ["--solc", compiler, "--standard-json"]

end Backend

namespace Recompiler

variable {ν : Type} {r : Recompiler} {m : Metadata} {version : String} {o : Outside ν} {w : World ν}

/-- The compilers of a directory. -/
private def keeping (directory : String) : Recompiler := ⟨⟨directory, "http://localhost/"⟩, .ofSeconds 1⟩

/-- A directory with a compiler and the default toolchain. -/
private def stocked : World Unit :=
  .start () ⟨[(["c"], .directory), (["c", "v0.8.26"], .file Disk.programMode [1]),
    (["c", "resolc"], .file Disk.programMode [2])], []⟩

/-- The world in which the compiler has been found there. -/
private def found : World Unit := ((keeping "/c").cache.ensure "v0.8.26" .idle stocked).2

end Recompiler

end Provenance
