import Provenance.Archive.Tar
import Provenance.CommandLine.Command
import Provenance.Http.Client
import Provenance.Release.Asset
import Provenance.Release.Error
import Provenance.Version

/-!
# Installing releases

A release of the toolchain is looked up, its binary downloaded and, if need be, taken out of its
archive. The binary is kept under the release's tag and under the default name; both are first
written under temporary names and then renamed.
-/

namespace Provenance.Release

variable {ν : Type}

/-- The name under which the program asks. -/
def userAgent : String := "contract-verifier/0.3.0"

/-- The headers of a request for documents of a kind. -/
def headers (accepted : String) : List (String × String) :=
  [("user-agent", userAgent), ("accept", accepted)]

/-- Name and address of a release, the latest one when there is no tag. -/
def lookup (releasesUrl : String) : Option String → String × String
  | some tag => (tag, releasesUrl ++ "/tags/" ++ tag)
  | none => ("latest", releasesUrl ++ "/latest")

/-- Fetches the description of a release. -/
def fetch (releasesUrl : String) (tag : Option String) : Session ν SetupError Release := do
  let (name, address) := lookup releasesUrl tag
  Session.log .debug .setup "Fetching resolc release" [("url", .shown address)]
  let reply ← (Http.get address (headers "application/vnd.github+json")).mapError
    (.releaseRequest name)
  if Http.isSuccess reply.status then
    Session.ofExcept ((reply.json decoder).mapError (.releaseRequest name))
  else Session.fail (.releaseStatus name reply.status)

/-- Downloads a file. -/
def download (url : String) : Session ν SetupError Bytes := do
  let reply ← (Http.get url (headers "*/*")).mapError (.download url)
  if Http.isSuccess reply.status then
    Session.ofExcept (reply.content.mapError (.download url))
  else Session.fail (.downloadStatus url reply.status)

/-- The binary in an archive. -/
def extractBinary (archive : Bytes) (asset : String) : Except SetupError Bytes :=
  match Archive.extract defaultBinary archive with
  | .error flaw => .error (.archive asset flaw.message)
  | .ok none => .error (.binaryNotInArchive asset)
  | .ok (some binary) => .ok binary

/-- The binary that a downloaded file is or holds. -/
def binaryOf (asset : Asset) (payload : Bytes) : Except SetupError Bytes :=
  if archiveSuffix.toList.isSuffixOf asset.name.toList then extractBinary payload asset.name
  else .ok payload

/-- Writes a program under a name of a directory, at first under a temporary one. -/
def writeProgram (directory name : String) (binary : Bytes) : Session ν SetupError Unit := do
  let temporary := Path.join directory (Path.partialName name)
  let final := Path.join directory name
  (Session.write temporary binary).mapError (.io temporary)
  (Session.change (Disk.setMode temporary Disk.programMode)).mapError (.io temporary)
  (Session.change (Disk.rename temporary final)).mapError (.io final)

/-- Where an installed release is. -/
structure Installed where
  tag : String
  path : String
  defaultPath : String
  deriving DecidableEq, Repr

/-- The file that is installed of a release. -/
def chosenAsset (r : Release) : Except SetupError Asset :=
  if !Version.isSafe r.tag.toList then .error (.invalidTag r.tag)
  else
    match r.asset? platformAsset with
    | some asset => .ok asset
    | none => .error (.assetNotFound r.tag platformAsset)

/-- Installs a release into a directory. -/
def installInto (directory : String) (releasesUrl : String) (tag : Option String) :
    Session ν SetupError Installed := do
  let release ← fetch releasesUrl tag
  let asset ← Session.ofExcept release.chosenAsset
  Session.log .info .setup "Downloading resolc"
    [("tag", .shown release.tag), ("asset", .shown asset.name)]
  let payload ← download asset.url
  let binary ← Session.ofExcept (binaryOf asset payload)
  (Session.change (Disk.createDirectories directory)).mapError (.io directory)
  writeProgram directory release.tag binary
  writeProgram directory defaultBinary binary
  let path := Path.join directory release.tag
  Session.log .info .setup "resolc installed" [("tag", .shown release.tag), ("path", .shown path)]
  return ⟨release.tag, path, Path.join directory defaultBinary⟩

/-- A tag as it is logged. -/
def shownTag : Option String → String
  | some tag => s!"Some({Text.quotedString tag})"
  | none => "None"

/-- Installs a release. -/
def install (o : CommandLine.SetupOptions) : Session ν SetupError Installed :=
  Session.within "install" .setup
    [("tag", .shown (shownTag o.tag)), ("cache_dir", .shown o.cacheDirectory)]
    (installInto o.cacheDirectory o.releasesUrl o.tag)

end Provenance.Release
