import Provenance.Text.LetterTable

/-!
# Small letters

Full lower-casing of text: every capital is mapped to its small letter (one capital has a small form
of two characters), and a capital sigma at the end of a word becomes the final sigma.
-/

namespace Provenance.Text

/-- The small form of a character, regardless of its neighbours. -/
def smallForm (c : Char) : List Char :=
  if c.toNat < 0x80 then [c.toLower]
  else if c.toNat = 0x130 then [Char.ofNat 0x69, Char.ofNat 0x307]
  else
    match capitals.find? fun run =>
        run.first ≤ c.toNat && c.toNat ≤ run.last && (c.toNat - run.first) % run.step = 0 with
    | some run => [Char.ofNat ((c.toNat : Int) + run.offset).toNat]
    | none => [c]

/-- Whether the first character that case rules do not look through has a case. -/
def startsCased (cs : List Char) : Bool :=
  match cs.dropWhile fun c => inRanges c.toNat caseIgnorable with
  | [] => false
  | c :: _ => inRanges c.toNat casedLetters

/-- The small letters of a text whose part already read is `before`, last character first. -/
def lowercaseAfter (before : List Char) : List Char → List Char
  | [] => []
  | c :: cs =>
    let small :=
      if c = 'Σ' then [if startsCased before && !startsCased cs then 'ς' else 'σ'] else smallForm c
    small ++ lowercaseAfter (c :: before) cs

/-- The text in small letters. -/
def lowercase (cs : List Char) : List Char := lowercaseAfter [] cs

/-- The text with its 26 Latin capitals in small letters and all else unchanged. -/
def asciiLowercase (cs : List Char) : List Char := cs.map Char.toLower

end Provenance.Text
