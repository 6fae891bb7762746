import Provenance.Log.Event
import Provenance.Log.Service

/-!
# Log lines

The two forms in which events are written: columns with colours for people to read, and documents,
one in a line. Both show the fields of the span in which the event happened.
-/

namespace Provenance.Log

/-! ## Columns -/

/-- Sets a colour by its number. -/
def colour (n : Nat) : String := s!"\x1b[{n}m"

/-- A text in a colour. -/
def coloured (n : Nat) (text : String) : String := colour n ++ text ++ colour 0

/-- The colour of a level. -/
def Level.colour : Level → Nat
  | .trace => 90
  | .debug => 34
  | .info => 32
  | .warn => 33
  | .error => 31

/-- A text that fills a column. -/
def column (width : Nat) (text : String) : String :=
  text ++ String.ofList (List.replicate (width - text.length) ' ')

/-- The beginning and the end of a long address. -/
def shortAddress (address : String) : String :=
  let cs := address.toList
  if cs.all (·.toNat < 0x80) && 12 < cs.length then
    String.ofList (cs.take 6 ++ ['.', '.'] ++ cs.drop (cs.length - 4))
  else address

/-- The chain and the address that the fields of a span tell, dashes where they do not. -/
def contextOf (fields : List (String × String)) : String × String :=
  ((Dictionary.get? "chain_id" fields).getD "-",
    ((Dictionary.get? "address" fields).map shortAddress).getD "-")

/-- The chain and the address of a record. -/
def Record.context (r : Record) : String × String :=
  match r.current? with
  | some span => contextOf span.fields
  | none => ("-", "-")

/-- The fields of an event. -/
def fieldsText (fields : Fields) : String :=
  ", ".intercalate (fields.map fun (name, value) => coloured 90 (name ++ "=" ++ value.bare))

/-- The line of a record. -/
def prettyLine (time : String) (r : Record) : String :=
  let (chain, address) := r.context
  let bar := " " ++ coloured 90 "|" ++ " "
  let cells := [
    coloured 96 time,
    coloured r.event.level.colour (column 5 r.event.level.text),
    coloured 92 (column 8 chain),
    coloured 92 (column 12 address),
    coloured 92 (column 10 (serviceOf r.event.target)),
    coloured 97 r.event.message.bare]
  let fields :=
    if r.event.fields.isEmpty then ""
    else " (" ++ coloured 97 (fieldsText r.event.fields) ++ ")"
  bar.intercalate cells ++ fields ++ "\n"

/-! ## Documents -/

/-- The fields of a record: those of the event, the name of the span, and those of the span, of
which a later one replaces a former one of its name. -/
def Record.allFields (r : Record) : List (String × Json.Value) :=
  let own := Dictionary.ofList (r.event.fields.map fun (name, value) => (name, value.toJson))
  match r.current? with
  | none => own
  | some span =>
    span.fields.foldl (fun all (name, value) => Dictionary.insert name (.string value) all)
      (Dictionary.insert "span_name" (.string span.name) own)

/-- The member of a document for something that may be missing. -/
def memberOf (name : String) (value : Option Json.Value) : List (String × Json.Value) :=
  (value.map fun v => (name, v)).toList

/-- The document of a record, without the file and the line of the program at which it was logged. -/
def Record.document (time : String) (r : Record) : Json.Value :=
  .object (
    memberOf "fields" (if r.allFields.isEmpty then none else some (.object r.allFields)) ++
    ("level", .string r.event.level.text) ::
    (memberOf "message" (r.event.message.text?.map .string) ++ [
      ("service", .string (serviceOf r.event.target)),
      ("target", .string r.event.target),
      ("timestamp", .string time)]))

/-- The line of a record as a document. -/
def jsonLine (time : String) (r : Record) : String := (r.document time).encode ++ "\n"

end Provenance.Log
