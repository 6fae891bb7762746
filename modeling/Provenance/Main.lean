import Provenance.Launch

/-!
# The command line

Runs the program on the files that its arguments name. Each line of the standard input is the body
of a verification request. Servers are not reached from here, and compilers are not started.
-/

namespace Provenance.Terminal

/-- What is outside of the program here: only chance. -/
def outside : Outside StdGen where
  exchange _ g := (none, g)
  run _ g := (.notStarted .permissionDenied, g)
  draw bound g := randNat g 0 (bound - 1)
  listen address g := (.ok address, g)

/-- The variables that the program knows. -/
def variableNames : List String :=
  CommandLine.RunOptions.parameters.map (·.envName) ++
    CommandLine.SetupOptions.parameters.map (·.envName) ++
    [Log.Settings.filterVariable, Log.Settings.formVariable]

/-- The values of the variables that the program knows. -/
def environment : IO Environment := do
  let values ← variableNames.mapM fun name => return (← IO.getEnv name).map fun v => (name, v)
  return Dictionary.ofList (values.filterMap id)

/-- The place where the program was started. -/
def current : Place := ["work"]

/-- The files among some paths. -/
def filesAmong (paths : List String) : IO Disk := do
  let files ← paths.filterMapM fun (path : String) => do
    match ← (IO.FS.readBinFile path).toBaseIO with
    | .ok content => return some (path, content.toList)
    | .error _ => return none
  return files.foldl (fun d (path, content) => d.put (placeOf path) (.file Disk.newMode content))
    ⟨[(current, .directory)], current⟩
where
  /-- The place of a path. -/
  placeOf (path : String) : Place :=
    if Path.isAbsolute path then Path.components path else current ++ Path.components path

/-- The lines of the standard input. -/
partial def readBodies (input : IO.FS.Stream) (read : List String) : IO (List String) := do
  let line ← input.getLine
  if line.isEmpty then return read.reverse else readBodies input (line :: read)

/-- The bodies of the requests that arguments ask to serve. -/
def bodiesFor (e : Environment) (arguments : List String) : IO (List String) := do
  match CommandLine.Command.parse e.value? arguments with
  | .ok (.run _) => readBodies (← IO.getStdin) []
  | _ => return []

/-- The request with a body. -/
def requestOf (body : String) : Http.Incoming :=
  ⟨"POST", "/verify", some Service.jsonType, Text.encode body⟩

end Provenance.Terminal

open Provenance Terminal in
/-- Runs the program. -/
def main (arguments : List String) : IO UInt32 := do
  let e ← environment
  let disk ← filesAmong
    ([Launch.variablesFile, CommandLine.RunOptions.defaults.chainsFile] ++ arguments)
  let bodies ← bodiesFor e arguments
  let start : World StdGen := .start (mkStdGen (← IO.rand 0 stdRange.2)) disk
  let session : Session StdGen Empty Launch := Launch.run e arguments (bodies.map requestOf)
  match session.runIn outside start with
  | (.error e, _) => nomatch e
  | (.ok launch, w) => do
    let time := toString (← IO.monoMsNow)
    for line in w.log.filterMap (launch.settings.line? time) do IO.print line
    for text in launch.notice.toList ++ launch.answers.map (·.body) do IO.println text
    return launch.status.toUInt32
