import Provenance.Log.Event
import Provenance.Text.Blank
import Provenance.Text.Split

/-!
# Log filters

A filter is a list of directives such as `info` or `verifier::core=debug`: each admits events up to
a level from targets that begin in a certain way. The directive of the longest such beginning
decides.
-/

namespace Provenance.Log

/-- A rule that admits events. -/
structure Directive where
  /-- How the targets begin that it is about. -/
  target : List Char
  /-- The number of the least level that is admitted. -/
  level : Nat
  deriving DecidableEq, Repr

/-- The numbers of levels by name, in small letters. -/
def levelNames : List (String × Nat) := [
  ("off", 0), ("error", 1), ("warn", 2), ("info", 3), ("debug", 4), ("trace", 5)]

/-- The number of the level that a text gives by number or name. -/
def levelOf? (cs : List Char) : Option Nat :=
  let digits := match cs with
    | '+' :: rest => rest
    | cs => cs
  if !digits.isEmpty && digits.all Char.isDigit then
    let n := digits.foldl (fun n c => n * 10 + (c.toNat - 48)) 0
    if n ≤ 5 then some n else none
  else (levelNames.find? fun entry => entry.1.toList = cs.map Char.toLower).map (·.2)

namespace Directive

/-- Whether a directive can begin with a character. -/
def canBegin (c : Char) : Bool :=
  c.isAlphanum || c = '-' || c = ':' || c = '_' || 0x80 ≤ c.toNat

/-- Reads a directive: a level, a target, or both with `=` between; without a level all are
admitted. -/
def parse? (text : List Char) : Option Directive :=
  match Text.trim text with
  | [] => none
  | c :: cs =>
    let front := (c :: cs).takeWhile (· ≠ '=')
    if !canBegin c || front.contains '[' then none
    else
      match (c :: cs).drop front.length with
      | [] =>
        match levelOf? front with
        | some n => some ⟨[], n⟩
        | none => some ⟨front, 5⟩
      | [_] => some ⟨front, 5⟩
      | _ :: level => (levelOf? level).map fun n => ⟨front, n⟩

end Directive

/-- A set of directives, of which those with longer targets come first. -/
structure Filter where
  directives : List Directive
  deriving Repr

namespace Filter

/-- Puts a directive in its place; one for the same target is replaced. -/
def add (d : Directive) : List Directive → List Directive
  | [] => [d]
  | e :: rest =>
    if d.target = e.target then d :: rest
    else if e.target.length ≤ d.target.length then d :: e :: rest
    else e :: add d rest

/-- The filter of some directives; without any, only errors are admitted. -/
def ofDirectives (ds : List Directive) : Filter :=
  if ds.isEmpty then ⟨[⟨[], 1⟩]⟩ else ⟨ds.foldl (fun known d => add d known) []⟩

/-- The parts of a text between commas. -/
def parts (text : String) : List (List Char) :=
  (Text.splitOn ',' text.toList).filter (!List.isEmpty ·)

/-- Reads a filter, unless one of its directives is none. -/
def parse? (text : String) : Option Filter :=
  ((parts text).mapM Directive.parse?).map ofDirectives

/-- Reads a filter and passes over what is no directive. -/
def parse (text : String) : Filter := ofDirectives ((parts text).filterMap Directive.parse?)

/-- Whether something of a level from a target is admitted. -/
def admits (f : Filter) (level : Level) (target : String) : Bool :=
  match f.directives.find? fun d => d.target.isPrefixOf target.toList with
  | some d => level.number ≤ d.level
  | none => false

/-- What is left of a record: nothing when the event is not admitted, else the event and the spans
that are admitted. -/
def keep? (f : Filter) (r : Record) : Option Record :=
  if f.admits r.event.level r.event.target then
    some { r with spans := r.spans.filter fun s => f.admits s.level s.target }
  else none

end Filter

end Provenance.Log
