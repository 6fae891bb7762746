import Provenance.Json.Decoder

/-!
# Releases

A release of the toolchain as its publisher describes it: a tag, and files to download.
-/

namespace Provenance

open Json

/-- A file of a release. -/
structure Asset where
  name : String
  url : String
  deriving DecidableEq, Repr

/-- A release. -/
structure Release where
  tag : String
  assets : List Asset
  deriving DecidableEq, Repr

/-- The fields of an asset. -/
def Asset.record : Record Asset where
  name := "ReleaseAsset"
  blank := ⟨"", ""⟩
  fields := [
    .necessary "name" .string fun v a => { a with name := v },
    .necessary "browser_download_url" .string fun v a => { a with url := v }]
  keep := none

namespace Release

/-- The fields of a release. -/
def record : Record Release where
  name := "Release"
  blank := ⟨"", []⟩
  fields := [
    .necessary "tag_name" .string fun v r => { r with tag := v },
    .optional "assets" (.list Asset.record.decoder) fun v r => { r with assets := v }]
  keep := none

/-- Reads a release. -/
def decoder : Decoder Release := record.decoder

/-- How the names of archives end. -/
def archiveSuffix : String := ".tar.gz"

/-- The file that is published for a base name, the binary itself or an archive that holds it. -/
def asset? (r : Release) (base : String) : Option Asset :=
  r.assets.find? fun a => a.name = base || a.name = base ++ archiveSuffix

/-- The base name of the files for this platform. -/
def platformAsset : String := "resolc-x86_64-unknown-linux-musl"

/-- The name under which a toolchain is kept that no tag chooses. -/
def defaultBinary : String := "resolc"

end Release

end Provenance
