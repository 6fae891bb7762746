import Provenance.Url.Host

/-!
# Addresses of the web

An address is read from text as browsers do: blanks around it and line breaks in it are ignored,
scheme and host are put in small letters, dots in the path are resolved, and what may not stand in a
part is percent-encoded. `Url.text` is its normal form.
-/

namespace Provenance

namespace Url

/-- The path of an address. -/
inductive Path where
  /-- Of an address without hierarchy, as it stands. -/
  | plain (cs : List Char)
  | segments (segments : List (List Char))
  deriving DecidableEq, Repr

end Url

/-- An address. -/
structure Url where
  scheme : List Char
  user : List Char
  password : List Char
  host : Option Url.Host
  port : Option Nat
  path : Url.Path
  query : Option (List Char)
  fragment : Option (List Char)
  deriving DecidableEq, Repr

namespace Url

/-- The port of a special scheme, `none` for all other schemes. -/
def defaultPort? (scheme : List Char) : Option Nat :=
  match String.ofList scheme with
  | "http" | "ws" => some 80
  | "https" | "wss" => some 443
  | "ftp" => some 21
  | _ => none

/-- Whether the scheme is that of files. -/
def isFile (scheme : List Char) : Bool := String.ofList scheme = "file"

/-- Whether addresses of the scheme always have a path, and separate it by backslashes too. -/
def isSpecial (scheme : List Char) : Bool := isFile scheme || (defaultPort? scheme).isSome

/-! ## Parts of the text -/

/-- Whether a character is ignored inside an address. -/
def isIgnored (c : Char) : Bool := c = '\t' || c = '\n' || c = '\r'

/-- The text that counts: without controls and spaces around it and without line breaks. -/
def significant (cs : List Char) : List Char :=
  let edge (c : Char) : Bool := c.toNat ≤ 0x20
  (((cs.dropWhile edge).reverse.dropWhile edge).reverse).filter (!isIgnored ·)

/-- The scheme, in small letters, and what follows its colon. -/
def splitScheme? (cs : List Char) : Option (List Char × List Char) :=
  let isPart (c : Char) : Bool := c.isAlphanum || c = '+' || c = '-' || c = '.'
  match cs with
  | [] => none
  | c :: _ =>
    let scheme := cs.takeWhile isPart
    match cs.drop scheme.length with
    | ':' :: rest => if c.isAlpha then some (scheme.map Char.toLower, rest) else none
    | _ => none

/-- Whether a character separates the segments of a path. -/
def isSeparator (special : Bool) (c : Char) : Bool := c = '/' || (special && c = '\\')

/-- Whether a character ends the part with user, host and port. -/
def endsAuthority (special : Bool) (c : Char) : Bool := isSeparator special c || c = '?' || c = '#'

/-- The part up to the last `@` of the authority, and what follows it. -/
def splitUser (special : Bool) (cs : List Char) : Option (List Char × List Char) :=
  let authority := cs.takeWhile (!endsAuthority special ·)
  let behind := (authority.reverse.takeWhile (· ≠ '@')).reverse
  if behind.length = authority.length then none
  else
    let before := authority.take (authority.length - behind.length - 1)
    some (before, cs.drop (before.length + 1))

/-- User name and password, encoded. -/
def userAndPassword (cs : List Char) : List Char × List Char :=
  let user := cs.takeWhile (· ≠ ':')
  (percentEncode inUserSet user, percentEncode inUserSet (cs.drop (user.length + 1)))

/-- The text of the host, colons in brackets included, and what follows it. -/
def splitHost (special : Bool) : (bracketed : Bool) → List Char → List Char × List Char
  | _, [] => ([], [])
  | bracketed, c :: cs =>
    if endsAuthority special c || (c = ':' && !bracketed) then ([], c :: cs)
    else
      let (host, rest) := splitHost special (if c = '[' then true else if c = ']' then false
        else bracketed) cs
      (c :: host, rest)

/-- The port after its colon, and what follows it. -/
def readPort (cs : List Char) : Except UrlError (Option Nat × List Char) :=
  let digits := cs.takeWhile Char.isDigit
  let rest := cs.drop digits.length
  let n := digits.foldl (fun n c => n * 10 + (c.toNat - 48)) 0
  if 65535 < n then .error .invalidPort
  else
    match rest with
    | c :: _ =>
      if endsAuthority true c then .ok (if digits.isEmpty then none else some n, rest)
      else .error .invalidPort
    | [] => .ok (if digits.isEmpty then none else some n, rest)

/-! ## Paths -/

/-- Whether a segment stands for the segment before it. -/
def isDoubleDot (cs : List Char) : Bool :=
  ["..", ".%2e", "%2e.", "%2e%2e"].contains (String.ofList (cs.map Char.toLower))

/-- Whether a segment stands for nothing. -/
def isSingleDot (cs : List Char) : Bool :=
  [".", "%2e"].contains (String.ofList (cs.map Char.toLower))

/-- Whether a segment names a drive. -/
def isDrive : List Char → Bool
  | [c, d] => c.isAlpha && (d = ':' || d = '|')
  | _ => false

/-- The segments without the last one; a drive at the root of a file's path stays. -/
def shorten (file : Bool) (segments : List (List Char)) : List (List Char) :=
  match segments with
  | [only] => if file && isDrive only then segments else []
  | segments => segments.dropLast

/-- Adds segments to a path one by one. -/
def addSegments (file : Bool) (path : List (List Char)) : List (List Char) → List (List Char)
  | [] => path
  | s :: rest =>
    let isLast := rest.isEmpty
    let path :=
      if isDoubleDot s then
        let path := shorten file path
        if isLast then path ++ [[]] else path
      else if isSingleDot s then
        if isLast then path ++ [[]] else path
      else
        match s with
        | [c, '|'] => if file && path.isEmpty && c.isAlpha then path ++ [[c, ':']] else path ++ [s]
        | s => path ++ [s]
    addSegments file path rest

/-- The parts of a path between separators. -/
def pathParts (special : Bool) (cs : List Char) : List (List Char) :=
  Text.splitOn '/' (cs.map fun c => if isSeparator special c then '/' else c)

/-- Reads a path after its first separator. -/
def readSegments (special file : Bool) (cs : List Char) : List (List Char) :=
  let segments := addSegments file [] ((pathParts special cs).map (percentEncode inPathSet))
  if file then
    match segments.dropWhile List.isEmpty with
    | [] => [[]]
    | rest => rest
  else segments

/-! ## The whole -/

/-- Splits off query and fragment, both encoded. -/
def splitTail (special : Bool) (cs : List Char) :
    List Char × Option (List Char) × Option (List Char) :=
  let path := cs.takeWhile fun c => c ≠ '?' && c ≠ '#'
  let readFragment (cs : List Char) := percentEncode inFragmentSet cs
  match cs.drop path.length with
  | '?' :: rest =>
    let query := rest.takeWhile (· ≠ '#')
    let fragment := match rest.drop query.length with
      | '#' :: rest => some (readFragment rest)
      | _ => none
    (path, some (percentEncode (inQuerySet special) query), fragment)
  | '#' :: rest => (path, none, some (readFragment rest))
  | _ => (path, none, none)

/-- Reads what follows the slashes before the authority. -/
def readAuthority (scheme cs : List Char) : Except UrlError Url := do
  let special := isSpecial scheme
  let (user, rest) ← match splitUser special cs with
    | none => .ok ([], cs)
    | some ([], rest) =>
      match rest with
      | c :: _ => if endsAuthority special c then .error .emptyHost else .ok ([], rest)
      | [] => .ok ([], rest)
    | some (user, rest) => .ok (user, rest)
  let (hostText, rest) := splitHost special false rest
  if special && hostText.isEmpty then .error .emptyHost
  let host ← if special then Host.parse hostText else Host.parseOpaque hostText
  let (name, password) := userAndPassword user
  if hostText.isEmpty && !(name.isEmpty && password.isEmpty) then .error .emptyHost
  let (port, rest) ← match rest with
    | ':' :: rest => if hostText.isEmpty then .error .emptyHost else readPort rest
    | rest => .ok (none, rest)
  let port := if port = defaultPort? scheme then none else port
  let (path, query, fragment) := splitTail special rest
  let segments := match path with
    | [] => if special then [[]] else []
    | c :: cs => readSegments special false (if isSeparator special c then cs else c :: cs)
  return ⟨scheme, name, password, some host, port, .segments segments, query, fragment⟩

/-- Reads the address of a file after its scheme. -/
def readFile (scheme cs : List Char) : Except UrlError Url := do
  let (front, query, fragment) := splitTail true cs
  let withHost (host : Option Host) (path : List Char) : Url :=
    ⟨scheme, [], [], host, none, .segments (readSegments true true path), query, fragment⟩
  match front with
  | a :: b :: rest =>
    if isSeparator true a && isSeparator true b then
      let hostText := rest.takeWhile (!isSeparator true ·)
      if hostText.isEmpty || isDrive hostText then return withHost none rest
      else
        let host ← Host.parse hostText
        let path := rest.drop (hostText.length + 1)
        let isLocal := host = .name ['l', 'o', 'c', 'a', 'l', 'h', 'o', 's', 't']
        let drive := match pathParts true path with
          | first :: _ => isDrive first
          | [] => false
        return withHost (if isLocal || drive then none else some host) path
    else return withHost none (if isSeparator true a then b :: rest else front)
  | [a] => return withHost none (if isSeparator true a then [] else front)
  | [] => return withHost none []

/-- Reads an address without authority after its scheme. -/
def readPlain (scheme cs : List Char) : Url :=
  let (front, query, fragment) := splitTail false cs
  let path := match front with
    | '/' :: rest => Path.segments (readSegments false false rest)
    | front => .plain (percentEncode isControl front)
  ⟨scheme, [], [], none, none, path, query, fragment⟩

/-- Reads an address. -/
def parse (cs : List Char) : Except UrlError Url :=
  match splitScheme? (significant cs) with
  | none => .error .noScheme
  | some (scheme, rest) =>
    if isFile scheme then readFile scheme rest
    else if isSpecial scheme then readAuthority scheme (rest.dropWhile (isSeparator true))
    else
      match rest with
      | '/' :: '/' :: rest => readAuthority scheme rest
      | rest => .ok (readPlain scheme rest)

/-! ## Text -/

/-- User, password and the mark behind them, if there are any. -/
def userText (u : Url) : List Char :=
  if u.user.isEmpty && u.password.isEmpty then []
  else u.user ++ (if u.password.isEmpty then [] else ':' :: u.password) ++ ['@']

/-- The path as text. -/
def pathText (u : Url) : List Char :=
  match u.path with
  | .plain cs => cs
  | .segments segments => segments.flatMap fun s => '/' :: s

/-- Path and query, as a server is asked for them. -/
def requestTarget (u : Url) : List Char :=
  u.pathText ++ match u.query with
    | some q => '?' :: q
    | none => []

/-- Host and port as text. -/
def authorityText (u : Url) : List Char :=
  (match u.host with
    | some h => h.text
    | none => []) ++
  match u.port with
  | some p => ':' :: Nat.toDigits 10 p
  | none => []

/-- The address as text. -/
def text (u : Url) : List Char :=
  let authority :=
    if u.host.isSome || isFile u.scheme then '/' :: '/' :: (u.userText ++ u.authorityText)
    else
      match u.path with
      | .segments ([] :: _ :: _) => ['/', '.']
      | _ => []
  u.scheme ++ ':' :: (authority ++ u.requestTarget) ++
    match u.fragment with
    | some f => '#' :: f
    | none => []

/-- The address as text. -/
def toString (u : Url) : String := String.ofList u.text

/-! ## References -/

/-- The address up to the last slash of its path. -/
def directoryText (u : Url) : List Char :=
  let bare := { u with query := none, fragment := none }
  (bare.text.reverse.dropWhile (· ≠ '/')).reverse

/-- The text of what a reference refers to from an address of a special scheme. -/
def resolvedText (u : Url) (reference : List Char) : List Char :=
  let front := { u with path := .segments [], query := none, fragment := none }
  match reference with
  | [] => { u with fragment := none }.text
  | '#' :: _ => { u with fragment := none }.text ++ reference
  | '?' :: _ => { u with query := none, fragment := none }.text ++ reference
  | c :: rest =>
    if isSeparator true c then
      match rest with
      | d :: _ =>
        if isSeparator true d then u.scheme ++ ':' :: reference else front.text ++ reference
      | [] => front.text ++ reference
    else u.directoryText ++ reference

/-- Reads a reference from an address of a special scheme. -/
def join (u : Url) (reference : List Char) : Except UrlError Url :=
  match splitScheme? (significant reference) with
  | some _ => parse reference
  | none => parse (u.resolvedText (significant reference))

end Url

end Provenance
