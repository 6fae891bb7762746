import Provenance.CommandLine.Parameter

/-!
# Commands

The two commands of the program: `run` serves verifications, `setup` installs a toolchain release.
-/

namespace Provenance.CommandLine

/-- Where compilers are downloaded from; the version follows. -/
def defaultDownloadBase : String :=
  "https://github.com/ethereum/solc-bin/raw/gh-pages/linux-amd64/solc-linux-amd64-"

/-- Where the releases of the toolchain are listed. -/
def defaultReleasesUrl : String := "https://api.github.com/repos/paritytech/revive/releases"

/-- The directory of the compilers. -/
def defaultCacheDirectory : String := "./static"

/-- Settings of the service. -/
structure RunOptions where
  host : String
  port : Nat
  cacheDirectory : String
  downloadBase : String
  /-- Seconds that a compiler may take. -/
  compileTimeout : Nat
  chainsFile : String
  /-- Seconds that a request may take. -/
  httpTimeout : Nat
  deriving DecidableEq, Repr

namespace RunOptions

/-- The settings of a service that was told nothing. -/
def defaults : RunOptions where
  host := "0.0.0.0"
  port := 8081
  cacheDirectory := defaultCacheDirectory
  downloadBase := defaultDownloadBase
  compileTimeout := 120
  chainsFile := "chains.json"
  httpTimeout := 30

/-- The options of the service. -/
def parameters : List (Parameter RunOptions) := [
  .text "host" "VERIFIER_HOST" fun v o => { o with host := v },
  .port "port" "VERIFIER_PORT" fun v o => { o with port := v },
  .path "cache-dir" "VERIFIER_CACHE_DIR" fun v o => { o with cacheDirectory := v },
  .text "solc-download-base" "VERIFIER_SOLC_DOWNLOAD_BASE" fun v o => { o with downloadBase := v },
  .count "compile-timeout" "VERIFIER_COMPILE_TIMEOUT" fun v o => { o with compileTimeout := v },
  .path "chains-file" "VERIFIER_CHAINS_FILE" fun v o => { o with chainsFile := v },
  .count "http-timeout" "VERIFIER_HTTP_TIMEOUT" fun v o => { o with httpTimeout := v }]

end RunOptions

/-- Settings of an installation. -/
structure SetupOptions where
  /-- The release, the latest one when there is no tag. -/
  tag : Option String
  cacheDirectory : String
  releasesUrl : String
  httpTimeout : Nat
  deriving DecidableEq, Repr

namespace SetupOptions

/-- The settings of an installation that was told nothing. -/
def defaults : SetupOptions where
  tag := none
  cacheDirectory := defaultCacheDirectory
  releasesUrl := defaultReleasesUrl
  httpTimeout := 300

/-- A tag that is not empty. -/
def tagOf (text : String) : Option String := if text.isEmpty then none else some text

/-- An address without slashes at its end. -/
def withoutSlashes (url : String) : String :=
  String.ofList (Text.trimEndWhile (· = '/') url.toList)

/-- The options of an installation. -/
def parameters : List (Parameter SetupOptions) := [
  .text "tag" "VERIFIER_RESOLC_TAG" fun v o => { o with tag := tagOf v },
  .path "cache-dir" "VERIFIER_CACHE_DIR" fun v o => { o with cacheDirectory := v },
  .text "releases-url" "VERIFIER_RESOLC_RELEASES_URL" fun v o =>
    { o with releasesUrl := withoutSlashes v },
  .count "http-timeout" "VERIFIER_HTTP_TIMEOUT" fun v o => { o with httpTimeout := v }]

end SetupOptions

/-- What the program is asked to do. -/
inductive Command where
  | run (options : RunOptions)
  | setup (options : SetupOptions)
  deriving DecidableEq, Repr

namespace Command

/-- The names of the commands. -/
def names : List String := ["run", "setup", "help"]

/-- What follows `help`: nothing, or the name of a command. -/
def helpOn : List String → UsageError
  | [] => .help
  | [name] => if names.contains name then .help else .unknownCommand
  | _ => .unknownCommand

/-- Reads an argument before the command that is none. -/
def stray (argument : String) : UsageError :=
  match splitLong? argument.toList, shorts? argument.toList with
  | some (name, attached), _ =>
    let asked : Option UsageError :=
      if name = ['h', 'e', 'l', 'p'] then some .help
      else if name = ['v', 'e', 'r', 's', 'i', 'o', 'n'] then some .version
      else none
    match asked, attached with
    | none, _ => .unknownArgument
    | some _, some _ => .unwantedValue
    | some e, none => e
  | none, some ('h' :: _) => .help
  | none, some ('V' :: _) => .version
  | none, some _ => .unknownArgument
  | none, none => .unknownCommand

/-- Reads a command line. -/
def parse (environment : String → Option String) : List String → Except UsageError Command
  | [] => .error .noCommand
  | "run" :: rest =>
    (readSettings RunOptions.parameters .defaults environment rest).map Command.run
  | "setup" :: rest =>
    (readSettings SetupOptions.parameters .defaults environment rest).map Command.setup
  | "help" :: rest => .error (helpOn rest)
  | "--" :: rest =>
    match rest with
    | [] => .error .noCommand
    | argument :: _ =>
      .error (if names.contains argument then .unknownArgument else .unknownCommand)
  | argument :: _ => .error (stray argument)

end Command

end Provenance.CommandLine
