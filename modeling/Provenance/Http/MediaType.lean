/-!
# Media types

The types of contents, such as `application/json; charset=utf-8`: a type and a subtype, perhaps with
a suffix after a plus sign, and parameters after them. All names are read in small letters.
-/

namespace Provenance.Http

/-- A media type without its parameters. -/
structure MediaType where
  name : List Char
  subtype : List Char
  /-- What the subtype has after its last plus sign. -/
  suffix : Option (List Char)
  deriving DecidableEq, Repr

/-- The characters that names may have besides letters and digits, by their code points. -/
def tokenMarks : List Nat :=
  [0x21, 0x23, 0x24, 0x25, 0x26, 0x27, 0x2A, 0x2B, 0x2D, 0x2E, 0x5E, 0x5F, 0x60, 0x7C, 0x7E]

/-- Whether a name may have a character. -/
def isTokenChar (c : Char) : Bool := c.isAlphanum || tokenMarks.contains c.toNat

namespace MediaType

/-- How far parameters have been read. -/
inductive Progress where
  /-- Before a parameter. -/
  | between
  | name
  /-- After the sign between a name and its value. -/
  | equals
  | value
  /-- After the quote before a value. -/
  | opened
  | quoted
  /-- After the quote behind a value. -/
  | closed
  deriving DecidableEq, Repr

namespace Progress

/-- Reads a character. -/
def next (p : Progress) (c : Char) : Option Progress :=
  match p with
  | .between => if c = ' ' then some .between else if isTokenChar c then some .name else none
  | .name => if c = '=' then some .equals else if isTokenChar c then some .name else none
  | .equals => if c = '"' then some .opened else if isTokenChar c then some .value else none
  | .value => if c = ';' then some .between else if isTokenChar c then some .value else none
  | .opened => some .quoted
  | .quoted => if c = '"' then some .closed else some .quoted
  | .closed => if c = ';' then some .between else if c = ' ' then some .closed else none

/-- Whether the parameters may end here. -/
def isEnd : Progress → Bool
  | .between | .equals | .value | .closed => true
  | .name | .opened | .quoted => false

end Progress

/-- Whether a text is a list of parameters. -/
def areParameters (text : List Char) : Bool :=
  match text.foldlM Progress.next .between with
  | some p => p.isEnd
  | none => false

/-- A subtype without its suffix, and the suffix. A plus sign at the start begins none. -/
def splitSuffix : List Char → List Char × Option (List Char)
  | [] => ([], none)
  | c :: rest =>
    let suffix := (rest.reverse.takeWhile (· ≠ '+')).reverse
    if suffix.length = rest.length then (c :: rest, none)
    else (c :: rest.take (rest.length - suffix.length - 1), some suffix)

/-- The media type of a name and a subtype. -/
def ofNames (name subtype : List Char) : MediaType :=
  let (subtype, suffix) := splitSuffix subtype
  ⟨name, subtype, suffix⟩

/-- Whether a character can stand in a media type. -/
def isVisible (c : Char) : Bool := 0x20 ≤ c.toNat && c.toNat < 0x7F

/-- Reads a media type. The parameters begin after a semicolon or a space. -/
def parse? (text : List Char) : Option MediaType :=
  let text := text.map Char.toLower
  let name := text.takeWhile isTokenChar
  if name.isEmpty || !text.all isVisible then none
  else
    match text.drop name.length with
    | '/' :: rest =>
      let subtype := rest.takeWhile isTokenChar
      match rest.drop subtype.length with
      | [] => some (ofNames name subtype)
      | c :: parameters =>
        if (c = ';' || c = ' ') && !subtype.isEmpty && areParameters parameters then
          some (ofNames name subtype)
        else none
    | _ => none

/-- The name of documents. -/
def json : List Char := ['j', 's', 'o', 'n']

/-- Whether contents of a type are documents. -/
def isJson (t : MediaType) : Bool :=
  t.name = "application".toList && (t.subtype = json || t.suffix = some json)

end MediaType

end Provenance.Http
