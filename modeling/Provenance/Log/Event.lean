import Provenance.Dictionary
import Provenance.Json.Value
import Provenance.Text.Blank
import Provenance.Text.Quoted

/-!
# Log events

What is logged: events, and the spans in which they happen. The fields of a span hold for all events
inside it.
-/

namespace Provenance.Log

/-- How much an event matters. -/
inductive Level where
  | trace
  | debug
  | info
  | warn
  | error
  deriving DecidableEq, Repr, Inhabited

namespace Level

/-- The name of a level. -/
def text : Level → String
  | .trace => "TRACE"
  | .debug => "DEBUG"
  | .info => "INFO"
  | .warn => "WARN"
  | .error => "ERROR"

/-- The number of a level; the less it matters the greater. -/
def number : Level → Nat
  | .error => 1
  | .warn => 2
  | .info => 3
  | .debug => 4
  | .trace => 5

end Level

/-- The value of a field. -/
inductive Value where
  | text (s : String)
  /-- What was turned into text in order to be logged. -/
  | shown (s : String)
  | integer (n : Int)
  | bool (b : Bool)
  deriving DecidableEq, Repr

/-- A text without the quotes around it, however many there are. -/
def trimQuotes (cs : List Char) : List Char := Text.trimWhile (· = '"') cs

namespace Value

/-- A value as it is shown, a text between quotes. -/
def display : Value → List Char
  | .text s => Text.quoted s.toList
  | .shown s => s.toList
  | .integer n => Json.integerText n
  | .bool true => ['t', 'r', 'u', 'e']
  | .bool false => ['f', 'a', 'l', 's', 'e']

/-- A value as it is shown, without quotes around it. -/
def bare (v : Value) : String := String.ofList (trimQuotes v.display)

/-- A value as a span keeps it: a text as it is, all else as it is shown. -/
def kept : Value → String
  | .text s => s
  | v => v.bare

/-- A value in a document: numbers and truth values stay what they are. -/
def toJson : Value → Json.Value
  | .text s => .string s
  | .integer n => .integer n
  | .bool b => .bool b
  | v => .string v.bare

end Value

/-- The fields of an event, in the order in which they are given. -/
abbrev Fields := List (String × Value)

/-- What an event says. -/
inductive Message where
  | text (s : String)
  /-- What was turned into text in order to be logged. -/
  | shown (s : String)
  /-- The event says nothing besides its fields. -/
  | absent
  deriving DecidableEq, Repr

namespace Message

/-- A message as it is shown, without quotes around it. -/
def bare : Message → String
  | .text s => (Value.text s).bare
  | .shown s => (Value.shown s).bare
  | .absent => ""

/-- The text of a message, if there is one. -/
def text? : Message → Option String
  | .text s => some s
  | .shown s => some (Value.shown s).bare
  | .absent => none

end Message

/-- Something that happened. -/
structure Event where
  level : Level
  /-- The part of the program that reports it. -/
  target : String
  message : Message
  /-- All that is told besides the message. -/
  fields : Fields
  deriving Repr

/-- A stretch of work. -/
structure Span where
  name : String
  level : Level
  target : String
  /-- What was recorded so far, by name. -/
  fields : List (String × String)
  deriving Repr

/-- Records a field; a former value under its name is replaced. -/
def Span.record (name : String) (value : Value) (s : Span) : Span :=
  { s with fields := Dictionary.insert name value.kept s.fields }

/-- Opens a span. -/
def Span.start (name : String) (level : Level) (target : String) (fields : Fields) : Span :=
  fields.foldl (fun s (name, value) => s.record name value) ⟨name, level, target, []⟩

/-- An event and the spans around it, the innermost first. -/
structure Record where
  event : Event
  spans : List Span
  deriving Repr

/-- The span in which an event happened. -/
def Record.current? (r : Record) : Option Span := r.spans.head?

end Provenance.Log
