import Provenance.Text.Blank

/-!
# Command line parameters

Options of the form `--name value` or `--name=value`, each of which may instead be set by a variable
of the environment. A set of options is read into a record that starts out with its defaults.
-/

namespace Provenance.CommandLine

/-- Why a command line is not carried out. -/
inductive UsageError where
  /-- Help was asked for. -/
  | help
  /-- The version was asked for. -/
  | version
  /-- No command was given. -/
  | noCommand
  | unknownArgument
  | unknownCommand
  /-- An option lacks its value, or has an empty one where there must be one. -/
  | noValue
  /-- A flag was given a value. -/
  | unwantedValue
  | invalidValue
  /-- An option was given twice. -/
  | repeated
  deriving DecidableEq, Repr

/-- The status with which the program ends: to have asked for something is no error. -/
def UsageError.exitCode : UsageError → Nat
  | .help | .version => 0
  | _ => 2

/-- An option that changes a record of settings. -/
structure Parameter (σ : Type) where
  name : String
  /-- The variable that stands in for it. -/
  envName : String
  read : String → Except UsageError (σ → σ)

namespace Parameter

variable {σ : Type}

/-- An option for any text. -/
def text (name envName : String) (store : String → σ → σ) : Parameter σ :=
  ⟨name, envName, fun v => .ok (store v)⟩

/-- An option for a path. -/
def path (name envName : String) (store : String → σ → σ) : Parameter σ :=
  ⟨name, envName, fun v => if v.isEmpty then .error .noValue else .ok (store v)⟩

/-- The number that decimal digits write, `none` if there are no digits or other characters. -/
def digits? (cs : List Char) : Option Nat :=
  if cs.isEmpty || !cs.all Char.isDigit then none
  else some (cs.foldl (fun n c => n * 10 + (c.toNat - 48)) 0)

/-- A number with an optional sign. Below zero there are no numbers. -/
def number? (cs : List Char) : Option Nat :=
  match cs with
  | '+' :: rest => digits? rest
  | '-' :: rest => (digits? rest).filter (· = 0)
  | cs => digits? cs

/-- An option for a port. -/
def port (name envName : String) (store : Nat → σ → σ) : Parameter σ :=
  ⟨name, envName, fun v =>
    match (number? v.toList).filter (· < Nat.pow 2 16) with
    | some n => .ok (store n)
    | none => .error .invalidValue⟩

/-- An option for a number of 64 bits, which takes no minus sign. -/
def count (name envName : String) (store : Nat → σ → σ) : Parameter σ :=
  ⟨name, envName, fun v =>
    match (number? v.toList).filter fun n => n < Nat.pow 2 64 && v.toList.head? ≠ some '-' with
    | some n => .ok (store n)
    | none => .error .invalidValue⟩

end Parameter

/-! ## Reading -/

/-- What has been read so far. -/
structure Scan (σ : Type) where
  /-- Names of the options that have their value. -/
  given : List String
  settings : σ
  /-- The last option, whose value is still to come or still to be read. -/
  pending : Option (Parameter σ × Option String)
  /-- Whether options are over. -/
  trailing : Bool

namespace Scan

variable {σ : Type}

/-- Stores the value of an option. -/
def store (s : Scan σ) (p : Parameter σ) (value : String) : Except UsageError (Scan σ) := do
  let change ← p.read value
  return { s with given := p.name :: s.given, settings := change s.settings, pending := none }

/-- Settles the last option. -/
def settle (s : Scan σ) : Except UsageError (Scan σ) :=
  match s.pending with
  | none => .ok s
  | some (_, none) => .error .noValue
  | some (p, some value) => if s.given.contains p.name then .error .repeated else s.store p value

end Scan

/-- Name and attached value of an argument that begins with two dashes. -/
def splitLong? (argument : List Char) : Option (List Char × Option (List Char)) :=
  match argument with
  | '-' :: '-' :: rest =>
    let name := rest.takeWhile (· ≠ '=')
    match rest.drop name.length with
    | [] => some (name, none)
    | _ :: value => some (name, some value)
  | _ => none

/-- The letters of an argument that begins with one dash. -/
def shorts? (argument : List Char) : Option (List Char) :=
  match argument with
  | '-' :: c :: rest => some (c :: rest)
  | _ => none

variable {σ : Type}

/-- Reads an option that is given by its name. -/
def readLong (ps : List (Parameter σ)) (s : Scan σ) (name : List Char)
    (attached : Option (List Char)) : Except UsageError (Scan σ) :=
  if name = ['h', 'e', 'l', 'p'] then
    if attached.isSome then .error .unwantedValue
    else do
      let _ ← s.settle
      .error .help
  else
    match ps.find? fun p => p.name.toList = name with
    | none => .error .unknownArgument
    | some p => do
      let s ← s.settle
      match attached with
      | none => return { s with pending := some (p, none) }
      | some value =>
        let s := { s with pending := some (p, some (String.ofList value)) }
        s.settle

/-- Reads one argument. -/
def readArgument (ps : List (Parameter σ)) (s : Scan σ) (argument : String) :
    Except UsageError (Scan σ) :=
  if s.trailing then .error .unknownArgument
  else if argument = "--" then .ok { s with trailing := true }
  else
    match splitLong? argument.toList, shorts? argument.toList with
    | some (name, attached), _ => readLong ps s name attached
    | none, some ('h' :: _) => do
      let _ ← s.settle
      .error .help
    | none, some _ => .error .unknownArgument
    | none, none =>
      match s.pending with
      | some (p, none) => .ok { s with pending := some (p, some argument) }
      | _ => .error .unknownArgument

/-- Sets an option that was not given from its variable. -/
def readVariable (environment : String → Option String) (s : Scan σ) (p : Parameter σ) :
    Except UsageError (Scan σ) :=
  if s.given.contains p.name then .ok s
  else
    match environment p.envName with
    | none => .ok s
    | some value => s.store p value

/-- Reads arguments into settings, and the variables of the options that were not given. -/
def readSettings (ps : List (Parameter σ)) (defaults : σ) (environment : String → Option String)
    (arguments : List String) : Except UsageError σ := do
  let s ← arguments.foldlM (readArgument ps) ⟨[], defaults, none, false⟩
  let s ← s.settle
  let s ← ps.foldlM (readVariable environment) s
  return s.settings

end Provenance.CommandLine
