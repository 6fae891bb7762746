import Provenance.Disk
import Provenance.Version

/-!
# The compiler cache

Compilers are kept in one directory, one file a version, under the version as its name. A version
that is missing is downloaded.
-/

namespace Provenance

/-- A directory of compilers that is filled by downloads. -/
structure Cache where
  directory : String
  /-- Where compilers are downloaded from; the version follows. -/
  downloadBase : String
  deriving DecidableEq, Repr

namespace Cache

/-- Where the compiler of a version is kept. -/
def path (c : Cache) (version : String) : String := Path.join c.directory version

/-- Where the compiler of a version is while it is written. -/
def partialPath (c : Cache) (version : String) : String :=
  Path.join c.directory (Path.partialName version)

/-- Where the compiler of a version is downloaded from. -/
def url (c : Cache) (version : String) : String := c.downloadBase ++ version

end Cache

end Provenance
