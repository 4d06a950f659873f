import LanguageClient.Url.Host

/-!
# URI references

The protocol writes a document's address as a URI reference: a URI, or a text relative to one. It is
kept as it is written, so nothing is normalised; `UriReference.ofText?` only checks the grammar,
which is narrower than what a URL may contain. A percent sign has two hexadecimal digits after it,
and brackets stand around an IP address only.
-/

namespace LanguageClient

namespace UriReference

/-- Letters, digits and four marks. -/
def unreserved (c : Char) : Bool := c.isAlphanum || c = '-' || c = '.' || c = '_' || c = '~'

/-- The marks that may stand for themselves within a part. -/
def subDelimiter (c : Char) : Bool :=
  c = '!' || c = '$' || c = '&' || c = '\'' || c = '(' || c = ')' || c = '*' || c = '+' || c = ',' ||
    c = ';' || c = '='

/-- Whether every character is allowed or belongs to a percent sign and two digits. -/
def consistsOf (allowed : Char → Bool) : List Char → Bool
  | [] => true
  | '%' :: a :: b :: rest =>
    (Percent.hex? a).isSome && (Percent.hex? b).isSome && consistsOf allowed rest
  | c :: rest => allowed c && consistsOf allowed rest

/-- What a name of a host may contain. -/
def inName (c : Char) : Bool := unreserved c || subDelimiter c

/-- What a user may contain. -/
def inUser (c : Char) : Bool := inName c || c = ':'

/-- What a path may contain. -/
def inPath (c : Char) : Bool := inUser c || c = '@' || c = '/'

/-- What a query or a fragment may contain. -/
def inQuery (c : Char) : Bool := inPath c || c = '?'

/-- Whether the text between brackets is an address. -/
def isAddress (text : List Char) : Bool :=
  (Host.ipv6? text).isSome || isFuture text
where
  isFuture : List Char → Bool
    | v :: rest =>
      let version := rest.takeWhile fun c => (Percent.hex? c).isSome
      (v = 'v' || v = 'V') && !version.isEmpty &&
        match rest.drop version.length with
        | '.' :: address => !address.isEmpty && address.all inUser
        | _ => false
    | [] => false

/-- Whether the text is a host with or without a port. -/
def isHostAndPort (text : List Char) : Bool :=
  match text with
  | '[' :: rest =>
    let address := rest.takeWhile (· ≠ ']')
    isAddress address &&
      match rest.drop address.length with
      | [']'] => true
      | ']' :: ':' :: port => port.all Char.isDigit
      | _ => false
  | text =>
    let name := text.takeWhile (· ≠ ':')
    consistsOf inName name && ((text.drop name.length).drop 1).all Char.isDigit

/-- Whether the text is a user, a host and a port, of which the host alone is needed. -/
def isAuthority (text : List Char) : Bool :=
  if text.contains '@' then
    let user := text.takeWhile (· ≠ '@')
    consistsOf inUser user && isHostAndPort (text.drop (user.length + 1))
  else isHostAndPort text

/-- Whether the text, in front of any query or fragment, is an authority and a path. -/
def isHierarchy (text : List Char) : Bool :=
  match text with
  | '/' :: '/' :: rest =>
    let authority := rest.takeWhile (· ≠ '/')
    isAuthority authority && consistsOf inPath (rest.drop authority.length)
  | text => consistsOf inPath text

/-- Whether the text is a scheme. -/
def isScheme : List Char → Bool
  | [] => false
  | c :: rest =>
    c.isAlpha && rest.all fun c => c.isAlphanum || c = '+' || c = '-' || c = '.'

/-- Whether the text, in front of any query or fragment, is that of a URI or a relative one, whose
first segment has no colon. -/
def isBody (text : List Char) : Bool :=
  let first := text.takeWhile fun c => c ≠ ':' && c ≠ '/'
  match text.drop first.length with
  | ':' :: rest => isScheme first && isHierarchy rest
  | _ => isHierarchy text

/-- Whether the text is a URI reference. -/
def isValid (text : List Char) : Bool :=
  let main := text.takeWhile (· ≠ '#')
  let fragment := (text.drop main.length).drop 1
  let body := main.takeWhile (· ≠ '?')
  let query := (main.drop body.length).drop 1
  isBody body && consistsOf inQuery query && consistsOf inQuery fragment

end UriReference

/-- A text of the grammar of URI references. -/
structure UriReference where
  text : String
  valid : UriReference.isValid text.toList = true
  deriving DecidableEq

/-- The reference that a text is. -/
def UriReference.ofText? (text : String) : Option UriReference :=
  if h : UriReference.isValid text.toList = true then some ⟨text, h⟩ else none

end LanguageClient
