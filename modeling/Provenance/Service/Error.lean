import Provenance.Detail
import Provenance.Error

/-!
# Failures of the program

The errors that end the program, and how they are shown in full.
-/

namespace Provenance

namespace IoFault

/-- A fault in full. -/
def detail (fault : IoFault) : Detail :=
  match fault.system? with
  | some (code, name, text) =>
    .fields "Os" [("code", .number code), ("kind", .word name), ("message", .quote text)]
  | none =>
    match fault with
    | .nulInName =>
      .fields "Error" [("kind", .word "InvalidInput"), ("message", .quote fault.message)]
    | .notText =>
      .fields "Error" [("kind", .word "InvalidData"), ("message", .quote fault.message)]
    | _ => .fields "Custom" [("kind", .word "Other"), ("error", .quote fault.message)]

end IoFault

namespace Url

/-- The name of an error. -/
def UrlError.name : UrlError → String
  | .emptyHost => "EmptyHost"
  | .invalidDomain => "IdnaError"
  | .invalidPort => "InvalidPort"
  | .invalidIpv4 => "InvalidIpv4Address"
  | .invalidIpv6 => "InvalidIpv6Address"
  | .invalidHostCharacter => "InvalidDomainCharacter"
  | .noScheme => "RelativeUrlWithoutBase"

end Url

namespace Http

/-- An error of a transfer, of a kind and perhaps about an address, with its cause. -/
def transferDetail (kind : String) (url : Option String) (source : Detail) : Detail :=
  .fields "reqwest::Error" ([("kind", .word kind)] ++
    (match url with
      | some url => [("url", .quote url)]
      | none => []) ++ [("source", source)])

/-- An error in full. -/
def TransferError.detail : TransferError → Detail
  | .notBuilt reason => transferDetail "Builder" none (.word reason.name)
  | .notBuiltFor url => transferDetail "Builder" (some url) (.word "BadScheme")
  | .notSent url =>
    transferDetail "Request" (some url) (.tuple "hyper_util::client::legacy::Error"
      [.word "SendRequest", .tuple "hyper::Error" [.word "IncompleteMessage"]])
  | .tooManyRedirects url => transferDetail "Redirect" (some url) (.word "TooManyRedirects")
  | .brokenOff =>
    transferDetail "Decode" none (transferDetail "Body" none (.tuple "hyper::Error"
      [.word "Body",
        .fields "Custom" [("kind", .word "UnexpectedEof"), ("error", .word "IncompleteBody")]]))
  | .undecodable reason line column =>
    transferDetail "Decode" none (.tuple "Error"
      [.quote reason, .word s!"line: {line}", .word s!"column: {column}"])

end Http

/-- An error in full. -/
def SetupError.detail : SetupError → Detail
  | .releaseRequest release error =>
    .fields "ReleaseRequest" [("release", .quote release), ("source", error.detail)]
  | .releaseStatus release status =>
    .fields "ReleaseStatus" [("release", .quote release), ("status", .number status)]
  | .assetNotFound tag asset =>
    .fields "AssetNotFound" [("tag", .quote tag), ("asset", .quote asset)]
  | .invalidTag tag => .tuple "InvalidTag" [.quote tag]
  | .unsupportedPlatform platform => .tuple "UnsupportedPlatform" [.quote platform]
  | .download url error => .fields "Download" [("url", .quote url), ("source", error.detail)]
  | .downloadStatus url status =>
    .fields "DownloadStatus" [("url", .quote url), ("status", .number status)]
  | .archive asset reason =>
    .fields "Archive" [("asset", .quote asset),
      ("source", .fields "Custom" [("kind", .word "InvalidInput"), ("error", .quote reason)])]
  | .binaryNotInArchive asset => .tuple "BinaryNotInArchive" [.quote asset]
  | .io path fault => .fields "Io" [("path", .quote path), ("source", fault.detail)]

/-- Why the program ends before its time. -/
inductive StartError where
  /-- What it was told to work with is not in order. -/
  | config (reason : String)
  /-- There can be no directory for the compilers. -/
  | cache (path : String) (fault : IoFault)
  /-- The toolchain was not installed. -/
  | setup (error : SetupError)
  deriving DecidableEq, Repr

namespace StartError

/-- The same error among all failures. -/
def toVerifierError : StartError → VerifierError
  | .config reason => .config reason
  | .cache path fault => .compiler (.cache path fault)
  | .setup error => .setup error

/-- The message of an error. -/
def message (e : StartError) : String := e.toVerifierError.message

/-- An error in full. -/
def detail : StartError → Detail
  | .config reason => .tuple "ConfigError" [.quote reason]
  | .cache path fault =>
    .tuple "CompilerError" [.fields "Cache" [("path", .quote path), ("source", fault.detail)]]
  | .setup error => .tuple "SetupError" [error.detail]

end StartError

end Provenance
