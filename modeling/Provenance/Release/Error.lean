import Provenance.Fault
import Provenance.Http.Message

/-!
# Failures of an installation
-/

namespace Provenance

/-- Why a toolchain release could not be installed. -/
inductive SetupError where
  | releaseRequest (release : String) (error : Http.TransferError)
  | releaseStatus (release : String) (status : Nat)
  | assetNotFound (tag asset : String)
  | invalidTag (tag : String)
  | unsupportedPlatform (platform : String)
  | download (url : String) (error : Http.TransferError)
  | downloadStatus (url : String) (status : Nat)
  | archive (asset : String) (reason : String)
  | binaryNotInArchive (asset : String)
  | io (path : String) (fault : IoFault)
  deriving DecidableEq, Repr

/-- The message of an error. -/
def SetupError.message : SetupError → String
  | .releaseRequest release error => s!"Failed to fetch release {release}: {error.message}"
  | .releaseStatus release status => s!"Release lookup for {release} returned status {status}"
  | .assetNotFound tag asset => s!"Release {tag} has no asset named {asset}"
  | .invalidTag tag => s!"Invalid release tag {tag}"
  | .unsupportedPlatform platform => s!"No resolc build is published for {platform}"
  | .download url error => s!"Failed to download {url}: {error.message}"
  | .downloadStatus url status => s!"Download of {url} returned status {status}"
  | .archive asset reason => s!"Failed to read archive {asset}: {reason}"
  | .binaryNotInArchive asset => s!"Archive {asset} does not contain a resolc binary"
  | .io path fault => s!"Failed to write {path}: {fault.message}"

end Provenance
