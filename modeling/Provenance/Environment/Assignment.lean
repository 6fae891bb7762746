import Provenance.Environment.Basic
import Provenance.Environment.Line
import Provenance.Text.LetterTable

/-!
# Assignments

A line of a variable file sets a variable to a value. The value may have quotes, in which blanks are
kept, and between double quotes or none it may refer to variables that have been set.
-/

namespace Provenance.Environment

/-- Whether a name that is referred to may have a character. -/
def isNameChar (c : Char) : Bool := c.isAlphanum || Text.inRanges c.toNat Text.casedLetters

/-! ## Values -/

/-- How a character of a value is to be read. -/
inductive Mode where
  | plain
  /-- After a backslash. -/
  | escape
  /-- Inside single quotes. -/
  | strong
  /-- In the name of a variable. -/
  | name (read : List Char)
  /-- In the name of a variable between braces. -/
  | braced (read : List Char)
  /-- After a blank that ends the value. -/
  | ended
  /-- In a comment. -/
  | comment
  deriving DecidableEq, Repr

/-- What has been read of a value. -/
structure Reading where
  value : List Char
  mode : Mode
  /-- Whether a double quote is open. -/
  isQuoted : Bool
  deriving DecidableEq, Repr

namespace Reading

/-- Before a value. -/
def start : Reading := ⟨[], .plain, false⟩

/-- Takes characters into the value, and reads on plainly. -/
def take (r : Reading) (cs : List Char) : Reading :=
  { r with value := r.value ++ cs, mode := .plain }

/-- Goes on in a mode. -/
def turn (r : Reading) (mode : Mode) : Reading := { r with mode }

/-- The value of a variable, nothing if it has none. -/
def valueOf (e : Environment) (name : List Char) : List Char :=
  ((e.value? (String.ofList name)).getD "").toList

/-- Reads a character to which nothing before it gives a meaning. -/
def plain (r : Reading) (c : Char) : Reading :=
  if c = '$' then r.turn (.name [])
  else if c = '\\' then r.turn .escape
  else if c = '"' then { r with isQuoted := !r.isQuoted }
  else if r.isQuoted then r.take [c]
  else if c = '\x27' then r.turn .strong
  else if c = ' ' || c = '\t' then r.turn .ended
  else r.take [c]

/-- Reads a character after a backslash. -/
def escaped (r : Reading) (c : Char) : Option Reading :=
  if c = 'n' then some (r.take ['\n'])
  else if c = '\\' || c = '\x27' || c = '"' || c = '$' || c = ' ' then some (r.take [c])
  else none

/-- Reads a character in the name of a variable. The first that is no part of it ends it, and stands
for itself unless another name begins. -/
def named (e : Environment) (r : Reading) (read : List Char) (c : Char) : Reading :=
  if isNameChar c then r.turn (.name (read ++ [c]))
  else if c = '\x7b' && read.isEmpty then r.turn (.braced [])
  else
    let r := r.take (valueOf e read)
    if c = '$' then r.turn (.name []) else r.take [c]

/-- Reads a character. -/
def next (e : Environment) (r : Reading) (c : Char) : Option Reading :=
  match r.mode with
  | .plain => some (r.plain c)
  | .escape => r.escaped c
  | .strong => some (if c = '\x27' then r.turn .plain else { r with value := r.value ++ [c] })
  | .name read => some (r.named e read c)
  | .braced read =>
    some (if c = '\x7d' then r.take (valueOf e read) else r.turn (.braced (read ++ [c])))
  | .ended =>
    if c = ' ' || c = '\t' then some r
    else if c = '#' then some (r.turn .comment)
    else none
  | .comment => some r

/-- The value that has been read, unless a quote or a brace is open. -/
def finish (e : Environment) (r : Reading) : Option (List Char) :=
  if r.isQuoted then none
  else
    match r.mode with
    | .strong | .braced _ => none
    | .name read => some (r.value ++ valueOf e read)
    | _ => some r.value

end Reading

/-- Reads a value. -/
def readValue (e : Environment) (text : List Char) : Option (List Char) :=
  (text.foldlM (Reading.next e) Reading.start).bind (Reading.finish e)

/-! ## Lines -/

/-- A text without the blanks before it. -/
def skipBlanks (text : List Char) : List Char := text.dropWhile Text.isBlank

/-- Whether the name of a variable may have a character. -/
def isKeyChar (c : Char) : Bool := c.isAlphanum || c = '_' || c = '.'

/-- Reads the name of a variable. -/
def readKey : List Char → Option (List Char × List Char)
  | [] => none
  | c :: rest =>
    if c.isAlpha || c = '_' then
      some (c :: rest.takeWhile isKeyChar, skipBlanks (rest.dropWhile isKeyChar))
    else none

/-- What follows the sign between a name and its value. -/
def afterEquals : List Char → Option (List Char)
  | '=' :: rest => some (skipBlanks rest)
  | _ => none

/-- Reads a name and the sign after it. A word before the name tells that the variable is for other
programs too; it may be a name itself. -/
def readTarget (text : List Char) : Option (List Char × List Char) := do
  let (key, rest) ← readKey text
  match afterEquals rest with
  | some value => return (key, value)
  | none =>
    if key = "export".toList then
      let (key, rest) ← readKey rest
      return (key, ← afterEquals rest)
    else none

/-- What a line says. -/
inductive Assignment where
  | nothing
  | set (name value : List Char)
  deriving DecidableEq, Repr

/-- Reads a line. -/
def readLine (e : Environment) (line : List Char) : Option Assignment :=
  match skipBlanks (Text.trimEndWhile Text.isBlank line) with
  | [] | '#' :: _ => some .nothing
  | text => do
    let (name, value) ← readTarget text
    match value with
    | [] | '#' :: _ => return .set name []
    | value => return .set name (← readValue e value)

/-- Sets the variables of lines that have no value yet, up to the first line that cannot be read. -/
def readAll (e : Environment) : List (List Char) → Environment
  | [] => e
  | line :: rest =>
    match readLine e line with
    | none => e
    | some .nothing => readAll e rest
    | some (.set name value) => readAll (e.offer (String.ofList name) (String.ofList value)) rest

/-- Sets the variables of a file. -/
def readFile (e : Environment) (file : Bytes) : Environment := readAll e (linesOf file)

end Provenance.Environment
