import Provenance.Text.Blank
import Provenance.Text.Utf8

/-!
# Lines of variable files

A file that sets variables is a sequence of lines, each of which may run on over several lines of
the file as long as a quote is open. Comments are left out. `flatten_splitLines` says that splitting
loses nothing.
-/

namespace Provenance.Environment

/-- What may follow at some point of a line. -/
inductive Openness where
  /-- The line may end. -/
  | complete
  /-- After a blank outside of quotes, where a comment may begin. -/
  | gap
  | comment
  /-- After a backslash outside of quotes. -/
  | escape
  /-- Inside single quotes. -/
  | strong
  | strongEscape
  /-- Inside double quotes. -/
  | weak
  | weakEscape
  deriving DecidableEq, Repr

namespace Openness

/-- After a character outside of quotes that is no blank. -/
def outside (c : Char) : Openness :=
  if c = '\\' then .escape
  else if c = '"' then .weak
  else if c = '\x27' then .strong
  else .complete

/-- After one more character. -/
def next (o : Openness) (c : Char) : Openness :=
  match o with
  | .complete => if Text.isBlank c && c ≠ '\n' && c ≠ '\r' then .gap else outside c
  | .gap => if c = '#' then .comment else outside c
  | .comment => .comment
  | .escape => .complete
  | .strong => if c = '\\' then .strongEscape else if c = '\x27' then .complete else .strong
  | .strongEscape => .strong
  | .weak => if c = '\\' then .weakEscape else if c = '"' then .complete else .weak
  | .weakEscape => .weak

/-- Reads on up to a comment. -/
def scan (o : Openness) : List Char → List Char × Openness
  | [] => ([], o)
  | c :: rest =>
    match o.next c with
    | .comment => ([], .comment)
    | o' =>
      let (kept, final) := scan o' rest
      (c :: kept, final)

end Openness

/-- A line without the signs of its end. -/
def withoutEnd (line : List Char) : List Char :=
  if line.getLast? = some '\n' then
    let line := line.dropLast
    if line.getLast? = some '\r' then line.dropLast else line
  else line

/-- Whether a line holds nothing but a comment. -/
def isComment (line : List Char) : Bool := (line.dropWhile Text.isBlank).head? = some '#'

/-- The lines that are made of the lines of a file, up to the first that does not end. `begun` is
what has been read of a line. -/
def joinLines (begun : List Char) (o : Openness) : List (List Char) → List (List Char)
  | [] => []
  | line :: rest =>
    let text := begun ++ line
    if isComment text then joinLines [] .complete rest
    else
      match o.scan line with
      | (_, .complete) => withoutEnd text :: joinLines [] .complete rest
      | (kept, .comment) => (begun ++ kept) :: joinLines [] .complete rest
      | (_, o') => joinLines text o' rest

/-- The lines of a file with the signs of their ends. -/
def splitLines : Bytes → List Bytes
  | [] => []
  | b :: rest =>
    if b = 10 then [b] :: splitLines rest
    else
      match splitLines rest with
      | [] => [[b]]
      | line :: lines => (b :: line) :: lines

/-- The lines of a file, one after the other, are the file. -/
theorem flatten_splitLines (file : Bytes) : (splitLines file).flatten = file := by
  induction file with
  | nil => rfl
  | cons b rest ih =>
    by_cases h : b = 10
    · simp [splitLines, h, ih]
    · cases hs : splitLines rest with
      | nil =>
        rw [hs] at ih
        simp [splitLines, h, ← ih]
      | cons line lines =>
        rw [hs] at ih
        simpa [splitLines, h, hs] using ih

/-- The mark by which a file may begin. -/
def byteOrderMark : Bytes := [0xEF, 0xBB, 0xBF]

/-- A file without a mark at its beginning. -/
def withoutMark (file : Bytes) : Bytes :=
  if byteOrderMark.isPrefixOf file then file.drop byteOrderMark.length else file

/-- The lines of a file as texts, up to the first that is none. -/
def readLines : List Bytes → List (List Char)
  | [] => []
  | line :: rest =>
    match Text.text? line with
    | some text => text.toList :: readLines rest
    | none => []

/-- The lines that a file sets variables in. -/
def linesOf (file : Bytes) : List (List Char) :=
  joinLines [] .complete (readLines (splitLines (withoutMark file)))

end Provenance.Environment
