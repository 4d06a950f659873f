import LanguageClient.Url.Host
import LanguageClient.Url.Path

/-!
# URLs

A URL is kept as its one normal text, so that equality is equality of texts. `Url.parse` reads a
text, normalises it and answers the URL or the fault; `Url.join` reads a text relative to a base.
`Url.Parts` are the parts of the text; `Parts.ofText` finds them again in the text that
`Parts.text` shows.

Blanks around a text and tabs and line ends inside it do not count. A scheme of the web always has a
host and a path, and for it a backslash is a slash. Where there is neither a host nor a slash at the
front, the path is opaque and the URL can be no base.
-/

namespace LanguageClient

/-- A URL, by its normal text. -/
structure Url where
  text : String
  deriving DecidableEq, Repr

namespace Url

/-! ## Parts -/

/-- The parts of a URL, each as it is shown. -/
structure Parts where
  scheme : List Char
  /-- User, host and port, after two slashes. -/
  authority : Option (List Char)
  path : List Char
  query : Option (List Char)
  fragment : Option (List Char)
  deriving DecidableEq, Repr

/-- Whether a part ends in front of the character. -/
def endsPath (c : Char) : Bool := c = '?' || c = '#'

/-- The path, with a mark in front where it would read as a host. -/
def Parts.hierarchy (parts : Parts) : List Char :=
  match parts.authority with
  | some authority => '/' :: '/' :: authority ++ parts.path
  | none =>
    match parts.path with
    | '/' :: '/' :: _ => '/' :: '.' :: parts.path
    | path => path

/-- The text of a URL. -/
def Parts.text (parts : Parts) : List Char :=
  parts.scheme ++ ':' :: parts.hierarchy ++
    (match parts.query with
    | some query => '?' :: query
    | none => []) ++
    (match parts.fragment with
    | some fragment => '#' :: fragment
    | none => [])

/-- The query and the fragment at the end of a text. -/
def tailOf (text : List Char) : Option (List Char) × Option (List Char) :=
  match text with
  | '?' :: rest =>
    let query := rest.takeWhile (· ≠ '#')
    match rest.dropWhile (· ≠ '#') with
    | '#' :: fragment => (some query, some fragment)
    | _ => (some query, none)
  | '#' :: fragment => (none, some fragment)
  | _ => (none, none)

/-- The parts of the text of a URL. -/
def Parts.ofText (text : List Char) : Parts :=
  let scheme := text.takeWhile (· ≠ ':')
  let rest := (text.dropWhile (· ≠ ':')).drop 1
  let (authority, rest) : Option (List Char) × List Char :=
    match rest with
    | '/' :: '/' :: rest =>
      let inHost (c : Char) : Bool := c ≠ '/' && !endsPath c
      (some (rest.takeWhile inHost), rest.dropWhile inHost)
    | '/' :: '.' :: '/' :: '/' :: rest => (none, '/' :: '/' :: rest)
    | rest => (none, rest)
  let path := rest.takeWhile fun c => !endsPath c
  let (query, fragment) := tailOf (rest.dropWhile fun c => !endsPath c)
  ⟨scheme, authority, path, query, fragment⟩

def ofParts (parts : Parts) : Url := ⟨String.ofList parts.text⟩

def parts (url : Url) : Parts := Parts.ofText url.text.toList

/-- Whether the path neither starts with a slash nor follows a host. -/
def Parts.isOpaque (parts : Parts) : Bool :=
  parts.authority.isNone && parts.path.head? ≠ some '/'

/-- Whether nothing can be read relative to the URL but a fragment. -/
def cannotBeABase (url : Url) : Bool := url.parts.isOpaque

def path (url : Url) : List Char := url.parts.path

/-! ## Schemes -/

/-- How a scheme treats hosts and slashes. -/
def kindOf (scheme : List Char) : SchemeKind :=
  match String.ofList scheme with
  | "file" => .file
  | "http" | "https" | "ws" | "wss" | "ftp" => .hosted
  | _ => .plain

/-- The port that a scheme does not show. -/
def usualPort? (scheme : List Char) : Option Nat :=
  match String.ofList scheme with
  | "http" | "ws" => some 80
  | "https" | "wss" => some 443
  | "ftp" => some 21
  | _ => none

/-- Whether a scheme may contain the character. -/
def inScheme (c : Char) : Bool := c.isAlphanum || c = '+' || c = '-' || c = '.'

/-- The scheme in front of a colon, in lower case, and what follows the colon. -/
def readScheme? (text : List Char) : Option (List Char × List Char) :=
  match text with
  | [] => none
  | c :: _ =>
    if c.isAlpha then
      match text.dropWhile inScheme with
      | ':' :: rest => some ((text.takeWhile inScheme).map Char.toLower, rest)
      | _ => none
    else none

/-! ## Query and fragment -/

/-- The query and the fragment, encoded. -/
def readTail (kind : SchemeKind) (text : List Char) : Option (List Char) × Option (List Char) :=
  let set := if kind.special then Percent.hostedQuery else Percent.query
  let (query, fragment) := tailOf text
  (query.map (Percent.encode set), fragment.map (Percent.encode Percent.fragment))

/-! ## Authority -/

/-- Whether a slash ends the authority at the character. -/
def endsAuthority (kind : SchemeKind) (c : Char) : Bool :=
  c = '/' || endsPath c || (c = '\\' && kind.special)

/-- User name and password as shown, with the sign after them, and what follows the last such sign
of the authority. -/
def readUserinfo (kind : SchemeKind) (text : List Char) : Except UrlError (List Char × List Char) :=
  let inside := text.takeWhile fun c => !endsAuthority kind c
  let outside := text.drop inside.length
  if !inside.contains '@' then .ok ([], text)
  else
    let userinfo := (inside.reverse.dropWhile (· ≠ '@')).reverse.dropLast
    let host := (inside.reverse.takeWhile (· ≠ '@')).reverse
    if userinfo.isEmpty then
      if host.isEmpty ∧ ¬outside.isEmpty then .error .emptyHost else .ok ([], host ++ outside)
    else
      let name := userinfo.takeWhile (· ≠ ':')
      let password := userinfo.drop (name.length + 1)
      let shown := Percent.encode Percent.userinfo name ++
        (if password.isEmpty then [] else ':' :: Percent.encode Percent.userinfo password)
      .ok (if shown.isEmpty then [] else shown ++ ['@'], host ++ outside)

/-- The host and what follows it; a colon inside brackets belongs to the host. -/
def splitHost (kind : SchemeKind) (inBrackets : Bool) : List Char → List Char × List Char
  | [] => ([], [])
  | c :: rest =>
    if endsAuthority kind c ∨ (c = ':' ∧ ¬inBrackets) then ([], c :: rest)
    else
      let inBrackets := if c = '[' then true else if c = ']' then false else inBrackets
      let (host, rest) := splitHost kind inBrackets rest
      (c :: host, rest)

/-- The number of a port and what follows it. -/
def readPort (text : List Char) : Except UrlError (Option Nat × List Char) :=
  let ds := text.takeWhile Char.isDigit
  let rest := text.dropWhile Char.isDigit
  let port := ds.foldl (fun n c => n * 10 + (c.toNat - 48)) 0
  if 65535 < port then .error .invalidPort
  else
    match rest with
    | [] => .ok (if ds.isEmpty then none else some port, rest)
    | c :: _ =>
      if endsAuthority .hosted c then .ok (if ds.isEmpty then none else some port, rest)
      else .error .invalidPort

/-- The host and the port as shown, whether there is a host, and what follows. -/
def readHostAndPort (scheme : List Char) (text : List Char) :
    Except UrlError (List Char × Bool × List Char) := do
  let kind := kindOf scheme
  let (host, rest) := splitHost kind false text
  if host.isEmpty ∧ kind = .hosted then throw .emptyHost
  let host ← if kind.special then Host.read host else Host.readOpaque host
  match rest with
  | ':' :: rest =>
    if host.isEmpty then throw .emptyHost
    let (port, rest) ← readPort rest
    match port with
    | some port =>
      if usualPort? scheme = some port then pure (host, true, rest)
      else pure (host ++ ':' :: (toString port).toList, true, rest)
    | none => pure (host, true, rest)
  | rest => pure (host, !host.isEmpty, rest)

/-! ## Whole URLs -/

/-- The URL whose authority starts here. -/
def readAuthority (scheme : List Char) (text : List Char) : Except UrlError Parts := do
  let kind := kindOf scheme
  let (userinfo, rest) ← readUserinfo kind text
  let (host, hasHost, rest) ← readHostAndPort scheme rest
  if !hasHost ∧ ¬userinfo.isEmpty then throw .emptyHost
  let reading := Path.readStart kind .url true rest
  let (query, fragment) := readTail kind reading.rest
  pure ⟨scheme, some (userinfo ++ host), reading.path, query, fragment⟩

/-- What follows the slashes and backslashes in front, and their number. -/
def skipSlashes (text : List Char) : Nat × List Char :=
  let isSlash (c : Char) : Bool := c = '/' || c = '\\'
  ((text.takeWhile isSlash).length, text.dropWhile isSlash)

/-- The base with the path that is read onto the given one, and with a new query and fragment. -/
def Parts.withPath (base : Parts) (start text : List Char) : Parts :=
  let kind := kindOf base.scheme
  let reading := Path.read kind .url start text
  let (query, fragment) := readTail kind reading.rest
  { base with path := reading.path, query, fragment }

/-- The base without what a query or a fragment replaces; none for any other text. -/
def Parts.withTail? (base : Parts) (text : List Char) : Option Parts :=
  let (query, fragment) := readTail (kindOf base.scheme) text
  match text with
  | [] => some { base with fragment := none }
  | '?' :: _ => some { base with query, fragment }
  | '#' :: _ => some { base with fragment }
  | _ => none

/-- A text without a scheme, or with the scheme of its base, relative to a base that is no file. -/
def readRelative (base : Parts) (text : List Char) : Except UrlError Parts :=
  match base.withTail? text with
  | some parts => .ok parts
  | none =>
    match text with
    | '/' :: '/' :: rest => readAuthority base.scheme rest
    | '/' :: rest | '\\' :: rest =>
      let (count, afterSlashes) := skipSlashes text
      if 2 ≤ count then readAuthority base.scheme afterSlashes else .ok (base.withPath ['/'] rest)
    | text =>
      let path := Path.pop .plain base.path
      .ok (base.withPath (if path.isEmpty then ['/'] else path) text)

/-- A `file` URL with the given host. -/
def filePath (host start text : List Char) : Parts :=
  ({ scheme := "file".toList, authority := some host, path := [], query := none,
     fragment := none } : Parts).withPath start text

/-- Whether the text starts with the segment of a drive. -/
def startsWithDriveSegment (text : List Char) : Bool := Path.startsWithDrive (text.take 3)

/-- The host of a `file` URL, empty for this machine, and what follows it. -/
def readFileHost (text : List Char) : Except UrlError (List Char × List Char) := do
  let inHost (c : Char) : Bool := !endsAuthority .file c
  let host := text.takeWhile inHost
  if host.isEmpty ∨ Path.isDrive host then pure ([], text)
  else
    let host ← Host.read host
    pure (if host = "localhost".toList then [] else host, text.dropWhile inHost)

/-- A `file` URL after two slashes. -/
def readFileAuthority (text : List Char) : Except UrlError Parts := do
  let (host, rest) ← readFileHost text
  if host.isEmpty then pure (filePath [] ['/'] rest)
  else
    let reading := Path.readStart .file .url true rest
    let (query, fragment) := readTail .file reading.rest
    pure ⟨"file".toList, some (if reading.noHost then [] else host), reading.path, query, fragment⟩

/-- The host and the first drive that a `file` URL with one slash takes from its base. -/
def Parts.fileRoot (base : Parts) : List Char × List Char :=
  let segment := (base.path.drop 1).takeWhile (· ≠ '/')
  if Path.isNormalDrive segment then ([], '/' :: segment) else (base.authority.getD [], [])

/-- A `file` URL after its scheme, or a text relative to a `file` URL. -/
def readFile (base : Option Parts) (text : List Char) : Except UrlError Parts :=
  let isSlash (c : Char) : Bool := c = '/' || c = '\\'
  match text with
  | a :: b :: rest =>
    if isSlash a ∧ isSlash b then readFileAuthority rest
    else if isSlash a then oneSlash base (a :: b :: rest)
    else noSlash base text
  | [a] => if isSlash a then oneSlash base text else noSlash base text
  | [] => noSlash base text
where
  oneSlash (base : Option Parts) (text : List Char) : Except UrlError Parts :=
    match base with
    | some base =>
      if startsWithDriveSegment (text.drop 1) then .ok (filePath [] [] text)
      else
        let (host, start) := base.fileRoot
        .ok (filePath host start text)
    | none => .ok (filePath [] [] text)
  noSlash (base : Option Parts) (text : List Char) : Except UrlError Parts :=
    match base with
    | none => .ok (filePath [] ['/'] text)
    | some base =>
      match base.withTail? text with
      | some parts => .ok parts
      | none =>
        if startsWithDriveSegment text then .ok (filePath [] ['/'] text)
        else .ok (base.withPath (Path.pop .file base.path) text)

/-- A URL of a scheme that needs no host. -/
def readPlain (scheme text : List Char) : Except UrlError Parts :=
  let none' : Parts := ⟨scheme, none, [], none, none⟩
  match text with
  | '/' :: '/' :: rest => readAuthority scheme rest
  | '/' :: rest => .ok (none'.withPath ['/'] rest)
  | text =>
    let path := text.takeWhile fun c => !endsPath c
    let (query, fragment) := readTail .plain (text.drop path.length)
    .ok { none' with path := Percent.encode Percent.control path, query, fragment }

/-- A URL after its scheme. -/
def readAfterScheme (base : Option Parts) (scheme text : List Char) : Except UrlError Parts :=
  match kindOf scheme with
  | .file => readFile (base.filter fun b => b.scheme = scheme) text
  | .plain => readPlain scheme text
  | .hosted =>
    let (count, rest) := skipSlashes text
    match base with
    | some base =>
      if count < 2 ∧ base.scheme = scheme then readRelative base text else readAuthority scheme rest
    | none => readAuthority scheme rest

/-- The text without blanks and control characters around it, and without tabs and line ends. -/
def clean (text : List Char) : List Char :=
  let blank (c : Char) : Bool := c.toNat ≤ 32
  let text := ((text.dropWhile blank).reverse.dropWhile blank).reverse
  text.filter fun c => !(c = '\t' || c = '\n' || c = '\r')

/-- Reads a text, relative to a base if there is one. -/
def Parts.read (base : Option Parts) (text : List Char) : Except UrlError Parts :=
  let text := clean text
  match readScheme? text with
  | some (scheme, rest) => readAfterScheme base scheme rest
  | none =>
    match base with
    | none => .error .relativeWithoutBase
    | some base =>
      match text with
      | '#' :: _ => .ok ((base.withTail? text).getD base)
      | text =>
        if base.isOpaque then .error .relativeWithOpaqueBase
        else if kindOf base.scheme = .file then readFile (some base) text
        else readRelative base text

/-- The URL that a text says. -/
def parse (text : String) : Except UrlError Url :=
  (Parts.read none text.toList).map ofParts

/-- The URL that a text says relative to a base. -/
def join (base : Url) (text : String) : Except UrlError Url :=
  (Parts.read (some base.parts) text.toList).map ofParts

/-- The URL with another path, which starts with a slash. -/
def withPath (url : Url) (path : List Char) : Url :=
  let parts := url.parts
  let kind := kindOf parts.scheme
  let afterHost := match parts.authority with
    | some authority => !authority.isEmpty
    | none => false
  let reading := Path.readStart kind .alone afterHost path
  ofParts { parts with path := reading.path }

/-- The URL with a slash at the end of its path, unless it can be no base. -/
def asDirectory (url : Url) : Url :=
  if url.cannotBeABase ∨ url.path.getLast? = some '/' then url
  else url.withPath (url.path ++ ['/'])

end Url

end LanguageClient
