import Provenance.Metadata

/-!
# Standard JSON input

The document that a compiler reads: the sources and settings of the metadata, with libraries nested
by path, a fixed selection of outputs, and no contract of interest.
-/

namespace Provenance

open Json

/-- The outputs asked of a compiler. -/
def outputSelection : List String := ["abi", "evm.bytecode", "evm.deployedBytecode"]

/-- The selection of these outputs for every contract of every source. -/
def outputSelectionValue : Value :=
  .object [("*", .object [("*", .array (outputSelection.map .string))])]

/-- Splits a text at its last colon. -/
def splitLastColon (cs : List Char) : Option (List Char × List Char) :=
  let name := (cs.reverse.takeWhile (· ≠ ':')).reverse
  if name.length = cs.length then none
  else some (cs.take (cs.length - name.length - 1), name)

/-- Path and name of a library that is listed under both. -/
def libraryName? (key : String) : Option (String × String) :=
  (splitLastColon key.toList).map fun (path, name) => (String.ofList path, String.ofList name)

/-- Adds the address of a library under a path. What stands there already is kept if it holds no
names. -/
def addLibrary (path name address : String) (nested : List (String × Value)) :
    List (String × Value) :=
  match Dictionary.get? path nested with
  | none => Dictionary.insert path (.object [(name, .string address)]) nested
  | some (.object names) =>
    Dictionary.insert path (.object (Dictionary.insert name (.string address) names)) nested
  | some _ => nested

/-- Puts one entry of the metadata's libraries into the nested form. -/
def nestLibrary (nested : List (String × Value)) (entry : String × Value) :
    List (String × Value) :=
  match entry.2, libraryName? entry.1 with
  | .string address, some (path, name) => addLibrary path name address nested
  | value, _ => Dictionary.insert entry.1 value nested

/-- Nests libraries that are listed by path and name under their paths. Other entries pass. -/
def nestLibraries (libraries : List (String × Value)) : List (String × Value) :=
  libraries.foldl nestLibrary []

/-- What a compiler is given. -/
structure StandardJson where
  language : String
  sources : List (String × SourceFile)
  settings : Settings
  deriving Repr, BEq

/-- The compiler input of a metadata document. -/
def Metadata.standardJson (m : Metadata) : StandardJson where
  language := m.language
  sources := m.sources
  settings := { m.settings with
    compilationTarget := []
    libraries := nestLibraries m.settings.libraries
    outputSelection := some outputSelectionValue }

/-! ## Writing -/

/-- A member that is left out when it has no value. -/
private def member? (name : String) (value : Option Value) : List (String × Value) :=
  match value with
  | some v => [(name, v)]
  | none => []

/-- A member that is left out when it is an empty dictionary. -/
private def entries? (name : String) (entries : List (String × Value)) : List (String × Value) :=
  if entries.isEmpty then [] else [(name, .object entries)]

/-- A source file as a document. -/
def SourceFile.toValue (s : SourceFile) : Value :=
  .object (member? "keccak256" (s.keccak256.map .string) ++ [("content", .string s.content)])

/-- The optimizer's settings as a document. -/
def Optimizer.toValue (o : Optimizer) : Value :=
  .object ([("enabled", .bool o.enabled), ("runs", .integer o.runs)] ++ o.extra)

/-- The compiler's settings as a document. -/
def Settings.toValue (s : Settings) : Value :=
  .object (
    (if s.remappings.isEmpty then []
      else [("remappings", .array (s.remappings.map .string))]) ++
    [("optimizer", s.optimizer.toValue)] ++
    member? "evmVersion" (s.evmVersion.map .string) ++
    entries? "libraries" s.libraries ++
    member? "metadata" s.metadata ++
    entries? "compilationTarget" (s.compilationTarget.map fun (k, v) => (k, .string v)) ++
    member? "outputSelection" s.outputSelection ++
    s.extra)

/-- A compiler input as a document. -/
def StandardJson.toValue (input : StandardJson) : Value :=
  .object [
    ("language", .string input.language),
    ("sources", .object (input.sources.map fun (path, s) => (path, s.toValue))),
    ("settings", input.settings.toValue)]

end Provenance
