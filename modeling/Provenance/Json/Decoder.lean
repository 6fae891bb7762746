import Provenance.Json.Document

/-!
# Decoders

A decoder reads a value of some type from a node of a document, or says what is wrong with it. The
nesting at which the node stands is given along, since a wanted value nests at most `maxNesting`
deep. Records are described by their fields (`Record`): they are read from objects in any order, and
from arrays in the order of the fields.
-/

namespace Provenance.Json

/-- The greatest number of lists and objects around a wanted value and its own brackets. -/
def maxNesting : Nat := 127

/-- Reads a value from a node that stands inside `depth` lists and objects. -/
abbrev Decoder (α : Type) := (depth : Nat) → Node → Except Failure α

/-- The failure of a node that is no value of the expected type. -/
def Node.mismatch (expected : String) : Node → Failure
  | .null _ stop => (Fault.wrongType .null expected).at (.at stop)
  | .bool _ stop b => (Fault.wrongType (.bool b) expected).at (.at stop)
  | .number _ stop (.ok (.integer n)) => (Fault.wrongType (.integer n) expected).at (.at stop)
  | .number _ stop (.ok (.double x)) => (Fault.wrongType (.double x) expected).at (.at stop)
  | .number _ _ (.error f) => f
  | .string _ stop (.ok s) => (Fault.wrongType (.string s) expected).at (.at stop)
  | .string _ _ (.error f) => f
  | .array start _ _ => (Fault.wrongType .sequence expected).at (.at start)
  | .object start _ _ => (Fault.wrongType .map expected).at (.at start)
  | .broken _ b => b.wanted

/-- Runs a reader of what is inside brackets, unless they nest too deep. -/
def nested {α : Type} (depth : Nat) (start : Rest) (read : Nat → Except Failure α) :
    Except Failure α :=
  if depth < maxNesting then read (depth + 1) else .error (Fault.tooDeep.at (.after start))

/-- Checks that a list ends as it should. -/
def ListEnd.check : ListEnd → Except Failure Unit
  | .broken b _ => .error b.wanted
  | _ => .ok ()

/-- Checks that an object ends as it should. -/
def ObjectEnd.check : ObjectEnd → Except Failure Unit
  | .broken _ b | .brokenKey _ b => .error b.wanted
  | .noColon key b => do
    let _ ← key.text
    .error b.wanted
  | _ => .ok ()

/-! ## Scalars -/

namespace Decoder

/-- A string. -/
def string : Decoder String
  | _, .string _ _ s => s
  | _, n => .error (n.mismatch "a string")

/-- A truth value. -/
def bool : Decoder Bool
  | _, .bool _ _ b => .ok b
  | _, n => .error (n.mismatch "a boolean")

/-- An integer of a range that has a name. -/
def integer (name : String) (allowed : Int → Bool) : Decoder Int
  | _, .number _ stop (.ok (.integer n)) =>
    if allowed n then .ok n else .error ((Fault.wrongValue (.integer n) name).at (.at stop))
  | _, n => .error (n.mismatch name)

/-- An integer of 64 bits with sign. -/
def int64 : Decoder Int := integer "i64" isSigned

/-- An integer of 64 bits without sign. -/
def uint64 : Decoder Nat := fun depth n => (integer "u64" isUnsigned depth n).map Int.toNat

/-- A length. -/
def length : Decoder Nat := fun depth n => (integer "usize" isUnsigned depth n).map Int.toNat

/-- A value or `null`. -/
def option {α : Type} (d : Decoder α) : Decoder (Option α)
  | _, .null _ _ => .ok none
  | depth, n => (d depth n).map some

end Decoder

/-! ## Keys -/

/-- How the keys of a dictionary are read. -/
structure KeyReader (κ : Type) where
  /-- From a key that is ended. -/
  ofKey : Key → Except Failure κ
  /-- From a key that is not ended, by what follows its opening quote: the failure. -/
  failure : Rest → Break → Failure

/-- Keys that are texts. -/
def KeyReader.text : KeyReader String := ⟨Key.text, fun _ b => b.wanted⟩

/-- A number as a key, read from what follows the opening quote. -/
def numericKey (inner : Rest) : Except Failure Nat :=
  match inner with
  | [] => .error (Fault.keyNotNumber.at (.at inner))
  | p :: rest =>
    let negative := p = .char '-'
    if !negative && !isDigitPiece p then .error (Fault.keyNotNumber.at (.at inner))
    else
      match numeral negative (if negative then rest else p :: rest) with
      | .error b => .error b.wanted
      | .ok (n, stop) => do
        let value ← Decoder.uint64 0 (.number inner stop (numberOf n stop))
        match stop with
        | .char '"' :: _ => return value
        | _ => .error (Fault.quoteExpected.at (.after stop))

/-- Keys that are numbers in quotes. -/
def KeyReader.number : KeyReader Nat where
  ofKey key := numericKey key.inner
  failure inner b :=
    match numericKey inner with
    | .error f => f
    | .ok _ => b.wanted

namespace Decoder

/-! ## Lists and dictionaries -/

/-- The items of a list from the one with a given index on. -/
def items {α : Type} (d : Decoder α) (depth : Nat) : (index : Nat) → List Node →
    Except Failure (List α)
  | _, [] => .ok []
  | index, n :: rest => do
    let a ← inside (.index index) (d depth n)
    let as ← items d depth (index + 1) rest
    return a :: as

/-- A list. -/
def list {α : Type} (d : Decoder α) : Decoder (List α)
  | depth, .array start nodes ending =>
    nested depth start fun depth => do
      let as ← items d depth 0 nodes
      ending.check
      return as
  | _, n => .error (n.mismatch "a sequence")

/-- Puts the members of an object into a dictionary. A later member replaces an earlier one. -/
def members {κ α : Type} [Ord κ] (keys : KeyReader κ) (d : Decoder α) (depth : Nat)
    (entries : List (κ × α)) : List (Key × Node) → Except Failure (List (κ × α))
  | [] => .ok entries
  | (key, n) :: rest => do
    let k ← keys.ofKey key
    let a ← d depth n
    members keys d depth (Dictionary.insert k a entries) rest

/-- A dictionary. -/
def dictionary {κ α : Type} [Ord κ] (keys : KeyReader κ) (d : Decoder α) :
    Decoder (List (κ × α))
  | depth, .object start nodes ending =>
    nested depth start fun depth => do
      let entries ← members keys d depth [] nodes
      match ending with
      | .brokenKey inner b => .error (keys.failure inner b)
      | .noColon key b => do
        let _ ← keys.ofKey key
        .error b.wanted
      | ending => ending.check
      return entries
  | _, n => .error (n.mismatch "a map")

end Decoder

/-! ## Free-form values -/

mutual

/-- Any value. -/
def Value.ofNode (depth : Nat) : Node → Except Failure Value
  | .null _ _ => .ok .null
  | .bool _ _ b => .ok (.bool b)
  | .number _ _ n => n.map .number
  | .string _ _ s => s.map .string
  | .array start nodes ending =>
    nested depth start fun depth => do
      let vs ← Value.ofItems depth 0 nodes
      ending.check
      return .array vs
  | .object start nodes ending =>
    nested depth start fun depth => do
      let entries ← Value.ofMembers depth [] nodes
      ending.check
      return .object entries
  | .broken _ b => .error b.wanted

/-- The items of a list. -/
def Value.ofItems (depth : Nat) (index : Nat) : List Node → Except Failure (List Value)
  | [] => .ok []
  | n :: rest => do
    let v ← inside (.index index) (Value.ofNode depth n)
    let vs ← Value.ofItems depth (index + 1) rest
    return v :: vs

/-- The members of an object, put into a dictionary. -/
def Value.ofMembers (depth : Nat) (entries : List (String × Value)) :
    List (Key × Node) → Except Failure (List (String × Value))
  | [] => .ok entries
  | (key, n) :: rest => do
    let k ← key.text
    let v ← inside (.field k) (Value.ofNode depth n)
    Value.ofMembers depth (Dictionary.insert k v entries) rest

end

/-- Any value. -/
def Decoder.value : Decoder Value := Value.ofNode

/-! ## Variants -/

/-- One of some names. -/
def nameOf {α : Type} (known : List (String × α)) (stop : Rest) (given : String) :
    Except Failure α :=
  match known.find? fun entry => entry.1 = given with
  | some (_, a) => .ok a
  | none => .error ((Fault.unknownVariant given (known.map (·.1))).at (.at stop))

/-- One of some names, given as a string or as the only key of an object that holds `null`. -/
def Decoder.variant {α : Type} (known : List (String × α)) : Decoder α
  | _, .string _ stop s => s.bind (nameOf known stop)
  | depth, .object start nodes ending =>
    nested depth start fun _ =>
      match nodes, ending with
      | (key, n) :: others, ending => do
        let name ← key.text
        let closing : Rest := match passString key.inner with
          | .ok rest => rest
          | .error _ => key.settled
        let a ← nameOf known closing name
        match n with
        | .null _ stop =>
          match others, ending with
          | [], .closed _ => return a
          | _, _ =>
            match skipBlanks stop with
            | [] => .error (Fault.objectEnds.at (.at []))
            | rest => .error (Fault.valueExpected.at (.at rest))
        | n => .error (n.mismatch "unit")
      | [], .brokenKey _ b => .error b.wanted
      | [], .noColon key b => do
        let name ← key.text
        let closing : Rest := match passString key.inner with
          | .ok rest => rest
          | .error _ => key.settled
        let _ ← nameOf known closing name
        .error b.wanted
      | [], .broken rest _ =>
        match rest with
        | [] => .error (Fault.valueEnds.at (.at []))
        | rest => .error ((Node.ofPieces rest).1.mismatch "variant identifier")
      | [], .closed _ =>
        .error (Fault.valueExpected.at (.after (skipBlanks start.tail)))
      | [], .unreached => .error (Fault.valueEnds.at (.at []))
  | _, .broken _ b => .error b.wanted
  | _, n => .error (Fault.valueExpected.at (.after n.start))

/-! ## Records -/

/-- A field of a record that is built up as a `σ`. -/
structure Field (σ : Type) where
  name : String
  /-- Other names that are accepted. -/
  aliases : List String
  required : Bool
  /-- What the field's value changes in the record. -/
  read : Decoder (σ → σ)

/-- A field that may be left out. -/
def Field.optional {σ α : Type} (name : String) (d : Decoder α) (store : α → σ → σ) : Field σ where
  name := name
  aliases := []
  required := false
  read depth n := (d depth n).map store

/-- A field that has to be there. -/
def Field.necessary {σ α : Type} (name : String) (d : Decoder α) (store : α → σ → σ) :
    Field σ :=
  { Field.optional name d store with required := true }

/-- The description of a record. -/
structure Record (σ : Type) where
  name : String
  /-- The record with every field left out. -/
  blank : σ
  fields : List (Field σ)
  /-- Where members of other names are kept; without it they are passed over. -/
  keep : Option (String → Value → σ → σ)

namespace Record

variable {σ : Type}

/-- The field that a key names. -/
def field? (r : Record σ) (key : String) : Option (Field σ) :=
  r.fields.find? fun f => f.name = key || f.aliases.contains key

/-- Fails on a key whose field was already given. -/
def checkFresh (r : Record σ) (seen : List String) (key : Key) : Except Failure Unit := do
  let k ← key.text
  match r.field? k with
  | some f =>
    if seen.contains f.name then .error ((Fault.duplicateField f.name).at (.at key.settled))
    else .ok ()
  | none => .ok ()

/-- Reads the members of an object. `seen` holds the names of the fields that were given. -/
def members (r : Record σ) (depth : Nat) (seen : List String) (state : σ) :
    List (Key × Node) → Except Failure (List String × σ)
  | [] => .ok (seen, state)
  | (key, n) :: rest => do
    r.checkFresh seen key
    let k ← key.text
    match r.field? k with
    | some f => do
      let store ← inside (.field k) (f.read depth n)
      r.members depth (f.name :: seen) (store state) rest
    | none =>
      match r.keep with
      | some keep => do
        let v ← inside (.field k) (Value.ofNode depth n)
        r.members depth seen (keep k v state) rest
      | none =>
        match n.passFailure? with
        | some f => inside (.field k) (.error f)
        | none => r.members depth seen state rest

/-- The first field that is necessary and was not given. -/
def missing? (r : Record σ) (seen : List String) : Option (Field σ) :=
  r.fields.find? fun f => f.required && !seen.contains f.name

/-- Reads a record from an object. -/
def ofObject (r : Record σ) (depth : Nat) (nodes : List (Key × Node)) (ending : ObjectEnd) :
    Except Failure σ := do
  let (seen, state) ← r.members depth [] r.blank nodes
  match ending with
  | .noColon key b => do
    r.checkFresh seen key
    .error b.wanted
  | .closed stop =>
    match r.missing? seen with
    | some f => .error ((Fault.missingField f.name).at (.at stop))
    | none => return state
  | ending => do
    ending.check
    return state

/-- The number of elements a record has, for a message. -/
def lengthText (r : Record σ) : String :=
  let n := r.fields.length
  let unit := if n = 1 then "element" else "elements"
  s!"struct {r.name} with {n} {unit}"

/-- Reads the fields of a record from the items of a list. -/
def elements (r : Record σ) (depth : Nat) (ending : ListEnd) (index : Nat) (state : σ) :
    List (Field σ) → List Node → Except Failure σ
  | [], [] =>
    match ending with
    | .broken _ full => .error full
    | _ => .ok state
  | [], n :: _ => .error (Fault.trailingCharacters.at (.after n.start))
  | f :: fields, n :: nodes => do
    let store ← inside (.index index) (f.read depth n)
    r.elements depth ending (index + 1) (store state) fields nodes
  | f :: fields, [] => do
    ending.check
    if f.required then
      match ending with
      | .closed stop => .error ((Fault.wrongLength index r.lengthText).at (.at stop))
      | _ => .ok state
    else r.elements depth ending (index + 1) state fields []

/-- Reads a record. One that keeps unknown members is read from objects only. -/
def decoder (r : Record σ) : Decoder σ
  | depth, .object start nodes ending =>
    nested depth start fun depth => r.ofObject depth nodes ending
  | depth, .array start nodes ending =>
    if r.keep.isSome then .error ((Node.array start nodes ending).mismatch s!"struct {r.name}")
    else nested depth start fun depth => r.elements depth ending 0 r.blank r.fields nodes
  | _, n => .error (n.mismatch s!"struct {r.name}")

end Record

/-! ## Whole documents -/

/-- Reads the value at the start of a text. What follows it is ignored. -/
def decodeHead {α : Type} (d : Decoder α) (pieces : List Text.Piece) : Except Failure α :=
  d 0 (Node.ofPieces pieces).1

/-- Reads a document: a value with nothing but blanks after it. -/
def decodePieces {α : Type} (d : Decoder α) (pieces : List Text.Piece) : Except Failure α := do
  let (n, left) := Node.ofPieces pieces
  let a ← d 0 n
  match skipBlanks (left.getD []) with
  | [] => return a
  | rest => .error (Fault.trailingCharacters.at (.after rest))

/-- Reads a document from a text, a failure being given as its message. -/
def decodeText {α : Type} (d : Decoder α) (text : String) : Except String α :=
  let pieces := Text.piecesOf text
  (decodePieces d pieces).mapError (Failure.message pieces)

/-- Reads a document from bytes, a failure being given as its message. -/
def decodeBytes {α : Type} (d : Decoder α) (bytes : Bytes) : Except String α :=
  let pieces := Text.pieces bytes
  (decodePieces d pieces).mapError (Failure.message pieces)

end Provenance.Json
