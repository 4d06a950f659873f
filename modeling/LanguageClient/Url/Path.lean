import LanguageClient.Url.Percent

/-!
# Paths

A path is read segment by segment onto the text that is there already: `.` adds nothing, `..` takes
the last segment away, anything else is added with its reserved characters encoded. A `..` at the
root stays at the root.

For the `file` scheme a first segment such as `c:` names a drive: it is never taken away, and `c|`
is written `c:`. Slashes at the front of such a path are one slash.
-/

namespace LanguageClient

/-- How the scheme of a URL treats hosts and slashes. -/
inductive SchemeKind where
  /-- The scheme `file`: a host may be missing and drives are known. -/
  | file
  /-- A scheme of the web: there is always a host, and a backslash is a slash. -/
  | hosted
  /-- Any other scheme. -/
  | plain
  deriving DecidableEq, Repr

/-- Whether a backslash is a slash. -/
def SchemeKind.special (kind : SchemeKind) : Bool := kind != .plain

namespace Path

/-- Where the characters of a path come from: the text of a URL, in which a query or a fragment may
follow, or a path alone. -/
inductive Context where
  | url
  | alone
  deriving DecidableEq, Repr

/-- A letter and then a colon or a bar, and nothing after them in this segment. -/
def startsWithDrive : List Char → Bool
  | [c, d] => c.isAlpha && (d = ':' || d = '|')
  | c :: d :: e :: _ =>
    c.isAlpha && (d = ':' || d = '|') && (e = '/' || e = '\\' || e = '?' || e = '#')
  | _ => false

/-- A letter and then a colon or a bar. -/
def isDrive (segment : List Char) : Bool := segment.length = 2 && startsWithDrive segment

/-- A letter and then a colon. -/
def isNormalDrive (segment : List Char) : Bool :=
  isDrive segment && segment.getLast? = some ':'

/-- The text up to and with its last slash; nothing when it has none. -/
def uptoLastSlash (path : List Char) : List Char :=
  (path.reverse.dropWhile (· ≠ '/')).reverse

/-- The text after its last slash. -/
def afterLastSlash (path : List Char) : List Char :=
  (path.reverse.takeWhile (· ≠ '/')).reverse

/-- The path without its last segment; the slash before it stays. -/
def pop (kind : SchemeKind) (path : List Char) : List Char :=
  if kind = .file ∧ isNormalDrive (afterLastSlash path) then path else uptoLastSlash path

/-- The path without the slash at its end, where one more slash is before it and the segment between
them is no drive. -/
def dropLastSlash (path : List Char) : List Char :=
  if path.getLast? ≠ some '/' then path
  else
    let before := path.dropLast
    let start := uptoLastSlash before
    if start.isEmpty then path
    else if startsWithDrive (path.drop start.length) then path
    else before

/-- A segment that names the parent. -/
def isParent (segment : List Char) : Bool :=
  match segment.map Char.toLower with
  | ['.', '.'] | ['%', '2', 'e', '.'] | ['.', '%', '2', 'e'] | ['%', '2', 'e', '%', '2', 'e'] => true
  | _ => false

/-- A segment that names the directory itself. -/
def isSelf (segment : List Char) : Bool :=
  match segment.map Char.toLower with
  | ['.'] | ['%', '2', 'e'] => true
  | _ => false

/-- The text with a slash at its end. -/
def endSlash (path : List Char) : List Char :=
  if path.getLast? = some '/' then path else path ++ ['/']

/-- The path after one more segment, which a slash follows or not. -/
def addSegment (kind : SchemeKind) (path segment : List Char) (slash : Bool) : List Char :=
  let written := Percent.encode Percent.path segment
  let (path, written, first) :=
    if kind = .file ∧ segment ≠ [] ∧ isNormalDrive (path.drop 1) then
      (path ++ ['/'], written, false)
    else (path, written, path.length = 1)
  if isParent written then
    let path := pop kind (dropLastSlash path)
    if slash then endSlash path else path
  else if isSelf written then endSlash path
  else
    let written :=
      if kind = .file ∧ first ∧ isDrive written then written.take 1 ++ [':'] else written
    path ++ written ++ (if slash then ['/'] else [])

/-- Whether the segment is a drive at the front of a `file` path, which leaves no place for a
host. -/
def leavesNoHost (kind : SchemeKind) (path segment : List Char) : Bool :=
  kind = .file && path.length = 1 && isDrive segment

/-- What a path reads: its text, whether a drive leaves no place for a host, and what follows it. -/
structure Reading where
  path : List Char
  noHost : Bool
  rest : List Char

/-- Reads segments onto the path; `segment` is the part of the next one that was read, in reverse
order. -/
def readSegments (kind : SchemeKind) (context : Context) (path segment : List Char)
    (noHost : Bool) : List Char → Reading
  | [] =>
    let last := segment.reverse
    ⟨addSegment kind path last false, noHost || leavesNoHost kind path last, []⟩
  | c :: rest =>
    if c = '/' ∨ (c = '\\' ∧ kind.special) then
      let last := segment.reverse
      readSegments kind context (addSegment kind path last true) []
        (noHost || leavesNoHost kind path last) rest
    else if (c = '?' ∨ c = '#') ∧ context = .url then
      let last := segment.reverse
      ⟨addSegment kind path last false, noHost || leavesNoHost kind path last, c :: rest⟩
    else readSegments kind context path (c :: segment) noHost rest

/-- Reads segments onto a path that is there already. -/
def read (kind : SchemeKind) (context : Context) (path text : List Char) : Reading :=
  let reading := readSegments kind context path [] false text
  if kind = .file then
    { reading with path := '/' :: reading.path.dropWhile (· = '/') }
  else reading

/-- Reads the path after a host. Where the scheme needs one there is at least a slash. -/
def readStart (kind : SchemeKind) (context : Context) (afterHost : Bool) (text : List Char) :
    Reading :=
  if kind.special then
    if afterHost then
      match text with
      | '/' :: rest | '\\' :: rest => read kind context ['/'] rest
      | text => read kind context ['/'] text
    else read kind context [] text
  else
    match text with
    | [] => read kind context [] []
    | '/' :: _ => read kind context [] text
    | c :: rest =>
      if c = '?' ∨ c = '#' then ⟨[], false, c :: rest⟩ else read kind context ['/'] text

end Path

end LanguageClient
