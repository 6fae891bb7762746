import Provenance.Json.Fault

/-!
# Documents as trees

A text is laid out as a tree of nodes that remember where they stand, down to the first place where
it stops being a document. What is wrong there depends on whether the value is wanted or passed
over: strings and numbers of a value that is passed over are checked for their form only. So a break
in the tree holds both failures, and a string or a number holds the failure of reading it.
-/

namespace Provenance.Json

open Text (Piece)

/-- The two ways in which a break is reported. -/
structure Break where
  /-- When the value is wanted. -/
  wanted : Failure
  /-- When it is passed over. -/
  passed : Failure
  deriving Repr

/-- A break that is reported in one way. -/
def Break.plain (f : Failure) : Break := ⟨f, f⟩

/-- A key of an object. -/
structure Key where
  /-- What follows the opening quote. -/
  inner : Rest
  /-- The text of the key. -/
  text : Except Failure String
  /-- What is left once the object is given up after the key. -/
  settled : Rest

/-- How the items of a list end. -/
inductive ListEnd where
  /-- By the closing bracket, before `rest`. -/
  | closed (rest : Rest)
  /-- By a break; `full` is its report when no further item was wanted. -/
  | broken (b : Break) (full : Failure)
  /-- Not at all: the last item is broken. -/
  | unreached

/-- How the members of an object end. -/
inductive ObjectEnd where
  /-- By the closing brace, before `rest`. -/
  | closed (rest : Rest)
  /-- By a break before the next key, which was looked for at `rest`. -/
  | broken (rest : Rest) (b : Break)
  /-- By a key that is not ended; `inner` follows its opening quote. -/
  | brokenKey (inner : Rest) (b : Break)
  /-- By a key without a colon. -/
  | noColon (key : Key) (b : Break)
  /-- Not at all: the value of the last member is broken. -/
  | unreached

/-- A value as it stands in a document: `start` is what is left of the document from its first byte
on, `stop` what is left after its last. -/
inductive Node where
  | null (start stop : Rest)
  | bool (start stop : Rest) (b : Bool)
  | number (start stop : Rest) (n : Except Failure Number)
  | string (start stop : Rest) (s : Except Failure String)
  | array (start : Rest) (items : List Node) (ending : ListEnd)
  | object (start : Rest) (members : List (Key × Node)) (ending : ObjectEnd)
  | broken (start : Rest) (b : Break)

/-- What is left of the document from the first byte of the value on. -/
def Node.start : Node → Rest
  | .null s _ | .bool s _ _ | .number s _ _ | .string s _ _ | .array s _ _ | .object s _ _
  | .broken s _ => s

/-- What is left after blanks. -/
def skipBlanks : Rest → Rest
  | .char c :: rest =>
    if c = ' ' ∨ c = '\n' ∨ c = '\t' ∨ c = '\r' then skipBlanks rest else .char c :: rest
  | rest => rest

/-! ## Words -/

/-- Reads the letters of a word. -/
def word : List Char → Rest → Except Failure Rest
  | [], rest => .ok rest
  | _ :: _, [] => .error (Fault.valueEnds.at (.at []))
  | c :: cs, p :: rest =>
    if p = .char c then word cs rest else .error (Fault.identExpected.at (.after (p :: rest)))

/-! ## Numbers -/

/-- The value of a decimal digit. -/
def digit? : Piece → Option Nat
  | .char c => if c.isDigit then some (c.toNat - 48) else none
  | .stray _ => none

/-- The digits at the start and what follows them. -/
def digits : Rest → List Nat × Rest
  | [] => ([], [])
  | p :: rest =>
    match digit? p with
    | some d =>
      let (ds, rest') := digits rest
      (d :: ds, rest')
    | none => ([], p :: rest)

/-- The break before a digit that is missing: when a value is wanted, the end of the document is
told apart from another character. -/
def noDigit (rest : Rest) : Break :=
  let passed := Fault.invalidNumber.at (.after rest)
  ⟨if rest.isEmpty then Fault.valueEnds.at (.at rest) else passed, passed⟩

/-- The digits before the point: one zero, or digits that do not start with one. -/
def wholeDigits (rest : Rest) : Except Break (List Nat × Rest) :=
  match digits rest with
  | ([], _) => .error (noDigit rest)
  | (0 :: _ :: _, _) => .error (.plain (Fault.invalidNumber.at (.after rest.tail)))
  | (ds, rest') => .ok (ds, rest')

/-- The digits after a point, none when there is no point. -/
def fractionDigits : Rest → Except Break (List Nat × Rest)
  | .char '.' :: rest =>
    match digits rest with
    | ([], _) => .error (noDigit rest)
    | (ds, rest') => .ok (ds, rest')
  | rest => .ok ([], rest)

/-- The sign of an exponent, and what follows it. -/
def exponentSign : Rest → Bool × Rest
  | .char '+' :: rest => (false, rest)
  | .char '-' :: rest => (true, rest)
  | rest => (false, rest)

/-- The exponent, if there is one. -/
def exponentPart : Rest → Except Break (Option (Bool × List Nat) × Rest)
  | .char c :: rest =>
    if c = 'e' ∨ c = 'E' then
      let (negative, rest') := exponentSign rest
      match digits rest' with
      | ([], _) => .error (noDigit rest')
      | (ds, rest'') => .ok (some (negative, ds), rest'')
    else .ok (none, .char c :: rest)
  | rest => .ok (none, rest)

/-- The parts of a number after its sign. -/
def numeral (negative : Bool) (rest : Rest) : Except Break (Numeral × Rest) := do
  let (whole, rest) ← wholeDigits rest
  let (fraction, rest) ← fractionDigits rest
  let (exponent, rest) ← exponentPart rest
  return (⟨negative, whole, fraction, exponent⟩, rest)

/-- A digit as it is written. -/
def digitPiece (d : Nat) : Piece := .char (Char.ofNat (48 + d))

/-- The value of a numeral that `rest` follows. -/
def numberOf (n : Numeral) (rest : Rest) : Except Failure Number :=
  match n.value with
  | .ok v => .ok v
  | .error .atEnd => .error (Fault.numberOutOfRange.at (.at rest))
  | .error (.inExponent taken) =>
    let unread := match n.exponent with
      | some (_, ds) => (ds.drop taken).map digitPiece
      | none => []
    .error (Fault.numberOutOfRange.at (.at (unread ++ rest)))

/-! ## Strings -/

/-- The value of a hexadecimal digit. -/
def hexValue? : Piece → Option Nat
  | .char c =>
    let n := c.toNat
    if 48 ≤ n ∧ n ≤ 57 then some (n - 48)
    else if 65 ≤ n ∧ n ≤ 70 then some (n - 55)
    else if 97 ≤ n ∧ n ≤ 102 then some (n - 87)
    else none
  | .stray _ => none

/-- The failure of an escape that has no four hexadecimal digits. -/
def noHexEscape (rest : Rest) : Failure :=
  if sizeOf rest < 4 then Fault.stringEnds.at (.at []) else Fault.invalidEscape.at ⟨rest, 4⟩

/-- The number that four hexadecimal digits write. -/
def hexEscape : Rest → Except Failure (Nat × Rest)
  | a :: b :: c :: d :: rest =>
    match hexValue? a, hexValue? b, hexValue? c, hexValue? d with
    | some a', some b', some c', some d' => .ok (((a' * 16 + b') * 16 + c') * 16 + d', rest)
    | _, _, _, _ => .error (noHexEscape (a :: b :: c :: d :: rest))
  | rest => .error (noHexEscape rest)

/-- The second half of a surrogate pair after the first, as the character of both. -/
def lowSurrogate (high : Nat) : Rest → Except Failure (Char × Rest)
  | [] => .error (Fault.stringEnds.at (.at []))
  | .char '\\' :: [] => .error (Fault.stringEnds.at (.at []))
  | .char '\\' :: .char 'u' :: rest => do
    let (low, rest) ← hexEscape rest
    if low < 0xDC00 ∨ 0xDFFF < low then .error (Fault.loneSurrogate.at (.at rest))
    else .ok (Char.ofNat (0x10000 + (high - 0xD800) * 0x400 + (low - 0xDC00)), rest)
  | .char '\\' :: rest => .error (Fault.hexEscapeEnds.at (.after rest))
  | rest => .error (Fault.hexEscapeEnds.at (.after rest))

/-- The character of an escape by number. -/
def unicodeEscape (rest : Rest) : Except Failure (Char × Rest) := do
  let (n, rest) ← hexEscape rest
  if 0xDC00 ≤ n ∧ n ≤ 0xDFFF then .error (Fault.loneSurrogate.at (.at rest))
  else if 0xD800 ≤ n ∧ n ≤ 0xDBFF then lowSurrogate n rest
  else .ok (Char.ofNat n, rest)

/-- The character that a letter after a backslash stands for. -/
def simpleEscape? : Char → Option Char
  | '"' => some '"'
  | '\\' => some '\\'
  | '/' => some '/'
  | 'b' => some (Char.ofNat 8)
  | 'f' => some (Char.ofNat 12)
  | 'n' => some '\n'
  | 'r' => some '\r'
  | 't' => some '\t'
  | _ => none

/-- The character of an escape after its backslash. -/
def escape : Rest → Except Failure (Char × Rest)
  | [] => .error (Fault.stringEnds.at (.at []))
  | .char 'u' :: rest => unicodeEscape rest
  | .char c :: rest =>
    match simpleEscape? c with
    | some e => .ok (e, rest)
    | none => .error (Fault.invalidEscape.at (.after (.char c :: rest)))
  | rest => .error (Fault.invalidEscape.at (.after rest))

/-- The characters of a string up to its closing quote, `none` if bytes among them are no text. -/
def stringBody : (fuel : Nat) → Rest → Except Failure (Option (List Char) × Rest)
  | 0, _ => .error (Fault.stringEnds.at (.at []))
  | _ + 1, [] => .error (Fault.stringEnds.at (.at []))
  | fuel + 1, .stray _ :: rest => do
    let (_, rest) ← stringBody fuel rest
    return (none, rest)
  | fuel + 1, .char c :: rest =>
    if c = '"' then .ok (some [], rest)
    else if c = '\\' then do
      let (e, rest) ← escape rest
      let (cs, rest) ← stringBody fuel rest
      return (cs.map (e :: ·), rest)
    else if c.toNat < 0x20 then .error (Fault.controlCharacter.at (.after (.char c :: rest)))
    else do
      let (cs, rest) ← stringBody fuel rest
      return (cs.map (c :: ·), rest)

/-- A string after its opening quote. -/
def string (rest : Rest) : Except Failure (String × Rest) := do
  let (cs, rest) ← stringBody rest.length rest
  match cs with
  | some cs => return (String.ofList cs, rest)
  | none => .error (Fault.invalidCodePoint.at (.at (.char '"' :: rest)))

/-- Passes over an escape after its backslash. -/
def passEscape : Rest → Except Failure Rest
  | [] => .error (Fault.stringEnds.at (.at []))
  | .char 'u' :: rest => (hexEscape rest).map (·.2)
  | .char c :: rest =>
    match simpleEscape? c with
    | some _ => .ok rest
    | none => .error (Fault.invalidEscape.at (.after (.char c :: rest)))
  | rest => .error (Fault.invalidEscape.at (.after rest))

/-- Passes over a string up to its closing quote. -/
def passBody : (fuel : Nat) → Rest → Except Failure Rest
  | 0, _ => .error (Fault.stringEnds.at (.at []))
  | _ + 1, [] => .error (Fault.stringEnds.at (.at []))
  | fuel + 1, .stray _ :: rest => passBody fuel rest
  | fuel + 1, .char c :: rest =>
    if c = '"' then .ok rest
    else if c = '\\' then do passBody fuel (← passEscape rest)
    else if c.toNat < 0x20 then .error (Fault.controlCharacter.at (.at (.char c :: rest)))
    else passBody fuel rest

/-- Passes over a string after its opening quote. -/
def passString (rest : Rest) : Except Failure Rest := passBody rest.length rest

/-- The break of a string that cannot even be passed over. -/
def stringBreak (inner : Rest) (passed : Failure) : Break :=
  ⟨match string inner with
    | .error f => f
    | .ok _ => passed, passed⟩

/-! ## Values -/

/-- What follows the colon after a key. -/
def colon (rest : Rest) : Except Break Rest :=
  match skipBlanks rest with
  | [] => .error (.plain (Fault.objectEnds.at (.at [])))
  | .char ':' :: rest => .ok rest
  | rest => .error (.plain (Fault.colonExpected.at (.after rest)))

/-- What is left once an object is given up: blanks and one closing brace are taken. -/
def settle (rest : Rest) : Rest :=
  match skipBlanks rest with
  | .char '\x7d' :: rest => rest
  | rest => rest

/-- Whether a piece begins a number without a sign. -/
def isDigitPiece (p : Piece) : Bool := (digit? p).isSome

mutual

/-- The value that begins after blanks, and what is left after it, `none` if it is broken. -/
def node : (fuel : Nat) → Rest → Node × Option Rest
  | 0, rest => (.broken rest (.plain (Fault.valueEnds.at (.at rest))), none)
  | fuel + 1, rest =>
    match skipBlanks rest with
    | [] => (.broken [] (.plain (Fault.valueEnds.at (.at []))), none)
    | .char 'n' :: inner =>
      match word ['u', 'l', 'l'] inner with
      | .ok stop => (.null (.char 'n' :: inner) stop, some stop)
      | .error f => (.broken (.char 'n' :: inner) (.plain f), none)
    | .char 't' :: inner =>
      match word ['r', 'u', 'e'] inner with
      | .ok stop => (.bool (.char 't' :: inner) stop true, some stop)
      | .error f => (.broken (.char 't' :: inner) (.plain f), none)
    | .char 'f' :: inner =>
      match word ['a', 'l', 's', 'e'] inner with
      | .ok stop => (.bool (.char 'f' :: inner) stop false, some stop)
      | .error f => (.broken (.char 'f' :: inner) (.plain f), none)
    | .char '"' :: inner =>
      match passString inner with
      | .ok stop => (.string (.char '"' :: inner) stop ((string inner).map (·.1)), some stop)
      | .error f => (.broken (.char '"' :: inner) (stringBreak inner f), none)
    | .char '[' :: inner =>
      let (nodes, ending, left) := firstItem fuel inner
      (.array (.char '[' :: inner) nodes ending, left)
    | .char '\x7b' :: inner =>
      let (members, ending, left) := firstMember fuel inner
      (.object (.char '\x7b' :: inner) members ending, left)
    | p :: inner =>
      if p = .char '-' ∨ isDigitPiece p = true then
        match numeral (p = .char '-') (if p = .char '-' then inner else p :: inner) with
        | .ok (n, stop) => (.number (p :: inner) stop (numberOf n stop), some stop)
        | .error b => (.broken (p :: inner) b, none)
      else (.broken (p :: inner) (.plain (Fault.valueExpected.at (.after (p :: inner)))), none)

/-- The items of a list after its opening bracket. -/
def firstItem : (fuel : Nat) → Rest → List Node × ListEnd × Option Rest
  | 0, _ => ([], .unreached, none)
  | fuel + 1, rest =>
    match skipBlanks rest with
    | [] =>
      let f := Fault.listEnds.at (.at [])
      ([], .broken (.plain f) f, none)
    | .char ']' :: stop => ([], .closed stop, some stop)
    | rest => item fuel rest

/-- An item of a list and those after it. -/
def item : (fuel : Nat) → Rest → List Node × ListEnd × Option Rest
  | 0, _ => ([], .unreached, none)
  | fuel + 1, rest =>
    match node fuel rest with
    | (n, none) => ([n], .unreached, none)
    | (n, some left) =>
      let (nodes, ending, left) := laterItem fuel left
      (n :: nodes, ending, left)

/-- What follows an item: a comma and a further item, or the end of the list. -/
def laterItem : (fuel : Nat) → Rest → List Node × ListEnd × Option Rest
  | 0, _ => ([], .unreached, none)
  | fuel + 1, rest =>
    match skipBlanks rest with
    | [] =>
      let f := Fault.listEnds.at (.at [])
      ([], .broken (.plain f) f, none)
    | .char ']' :: stop => ([], .closed stop, some stop)
    | .char ',' :: rest =>
      match skipBlanks rest with
      | [] =>
        ([], .broken (.plain (Fault.valueEnds.at (.at []))) (Fault.trailingCharacters.at (.at [])),
          none)
      | .char ']' :: rest =>
        let place := Place.after (.char ']' :: rest)
        let comma := Fault.trailingComma.at place
        ([], .broken ⟨comma, Fault.valueExpected.at place⟩ comma, none)
      | rest => item fuel rest
    | rest =>
      let place := Place.after rest
      ([], .broken (.plain (Fault.commaOrBracketExpected.at place))
        (Fault.trailingCharacters.at place), none)

/-- The members of an object after its opening brace. -/
def firstMember : (fuel : Nat) → Rest → List (Key × Node) × ObjectEnd × Option Rest
  | 0, _ => ([], .unreached, none)
  | fuel + 1, rest =>
    match skipBlanks rest with
    | [] => ([], .broken [] (.plain (Fault.objectEnds.at (.at []))), none)
    | .char '\x7d' :: stop => ([], .closed stop, some stop)
    | .char '"' :: inner => member fuel inner
    | rest => ([], .broken rest (.plain (Fault.keyNotString.at (.after rest))), none)

/-- A member of an object, after the opening quote of its key, and those after it. -/
def member : (fuel : Nat) → Rest → List (Key × Node) × ObjectEnd × Option Rest
  | 0, _ => ([], .unreached, none)
  | fuel + 1, inner =>
    match passString inner with
    | .error f => ([], .brokenKey inner (stringBreak inner f), none)
    | .ok rest =>
      let key : Key := ⟨inner, (string inner).map (·.1), settle rest⟩
      match colon rest with
      | .error b => ([], .noColon key b, none)
      | .ok rest =>
        match node fuel rest with
        | (n, none) => ([(key, n)], .unreached, none)
        | (n, some left) =>
          let (members, ending, left) := laterMember fuel left
          ((key, n) :: members, ending, left)

/-- What follows a member: a comma and a further member, or the end of the object. -/
def laterMember : (fuel : Nat) → Rest → List (Key × Node) × ObjectEnd × Option Rest
  | 0, _ => ([], .unreached, none)
  | fuel + 1, rest =>
    match skipBlanks rest with
    | [] => ([], .broken [] (.plain (Fault.objectEnds.at (.at []))), none)
    | .char '\x7d' :: stop => ([], .closed stop, some stop)
    | .char ',' :: rest =>
      match skipBlanks rest with
      | [] =>
        ([], .broken [] ⟨Fault.valueEnds.at (.at []), Fault.objectEnds.at (.at [])⟩, none)
      | .char '"' :: inner => member fuel inner
      | .char '\x7d' :: rest =>
        let rest := .char '\x7d' :: rest
        ([], .broken rest
          ⟨Fault.trailingComma.at (.after rest), Fault.keyNotString.at (.after rest)⟩, none)
      | rest => ([], .broken rest (.plain (Fault.keyNotString.at (.after rest))), none)
    | rest => ([], .broken rest (.plain (Fault.commaOrBraceExpected.at (.after rest))), none)

end

/-- Lays out the document at the start of a text. -/
def Node.ofPieces (pieces : List Piece) : Node × Option Rest :=
  node (3 * pieces.length + 3) pieces

/-! ## Passing over values -/

mutual

/-- The failure of passing over a value, if it is broken. -/
def Node.passFailure? : Node → Option Failure
  | .broken _ b => some b.passed
  | .array _ items ending =>
    match itemsPassFailure? items with
    | some f => some f
    | none =>
      match ending with
      | .broken b _ => some b.passed
      | _ => none
  | .object _ members ending =>
    match membersPassFailure? members with
    | some f => some f
    | none =>
      match ending with
      | .broken _ b | .brokenKey _ b | .noColon _ b => some b.passed
      | _ => none
  | _ => none

/-- The failure of passing over items. -/
def itemsPassFailure? : List Node → Option Failure
  | [] => none
  | n :: rest =>
    match n.passFailure? with
    | some f => some f
    | none => itemsPassFailure? rest

/-- The failure of passing over members. -/
def membersPassFailure? : List (Key × Node) → Option Failure
  | [] => none
  | (_, n) :: rest =>
    match n.passFailure? with
    | some f => some f
    | none => membersPassFailure? rest

end

end Provenance.Json
