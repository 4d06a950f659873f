/-!
# Percent encoding

Each part of a URL has its own set of characters that are written as `%XX` for every byte of their
UTF-8 form. A character outside ASCII is in every set. The percent sign itself is in none, so that
encoding a second time changes nothing.
-/

namespace LanguageClient

namespace Percent

/-- Control characters, delete, and all that is not ASCII. -/
def control (c : Char) : Bool := c.toNat < 32 || 126 < c.toNat

/-- What a fragment writes encoded. -/
def fragment (c : Char) : Bool :=
  control c || c = ' ' || c = '"' || c = '<' || c = '>' || c = '`'

/-- What a path writes encoded. -/
def path (c : Char) : Bool :=
  fragment c || c = '#' || c = '?' || c = '\x7b' || c = '\x7d'

/-- What a user name or a password writes encoded. -/
def userinfo (c : Char) : Bool :=
  path c || c = '/' || c = ':' || c = ';' || c = '=' || c = '@' || c = '[' || c = '\\' ||
    c = ']' || c = '^' || c = '|'

/-- What a query writes encoded. -/
def query (c : Char) : Bool :=
  control c || c = ' ' || c = '"' || c = '#' || c = '<' || c = '>'

/-- What the query of a scheme with a host writes encoded. -/
def hostedQuery (c : Char) : Bool := query c || c = '\''

/-- The upper-case digit of a number below sixteen. -/
def digit (n : Nat) : Char := if n < 10 then Char.ofNat (48 + n) else Char.ofNat (55 + n)

/-- A byte as a percent sign and two digits. -/
def byte (b : UInt8) : List Char := ['%', digit (b.toNat / 16), digit (b.toNat % 16)]

/-- A character of the set as its encoded bytes, any other as itself. -/
def encodeChar (set : Char → Bool) (c : Char) : List Char :=
  if set c then (String.utf8EncodeChar c).flatMap byte else [c]

/-- The text with the characters of the set encoded. -/
def encode (set : Char → Bool) (text : List Char) : List Char := text.flatMap (encodeChar set)

/-- The value of a hexadecimal digit of either case. -/
def hex? (c : Char) : Option Nat :=
  if '0' ≤ c ∧ c ≤ '9' then some (c.toNat - 48)
  else if 'a' ≤ c ∧ c ≤ 'f' then some (c.toNat - 87)
  else if 'A' ≤ c ∧ c ≤ 'F' then some (c.toNat - 55)
  else none

/-- The ASCII text with every `%XX` replaced by the character of that code; none when the text or
a code is outside ASCII. A percent sign without two digits stays. -/
def decodeAscii? : List Char → Option (List Char)
  | [] => some []
  | '%' :: a :: b :: rest =>
    match hex? a, hex? b with
    | some x, some y =>
      if x < 8 then (decodeAscii? rest).map (Char.ofNat (x * 16 + y) :: ·) else none
    | _, _ => (decodeAscii? (a :: b :: rest)).map ('%' :: ·)
  | c :: rest => if c.toNat < 128 then (decodeAscii? rest).map (c :: ·) else none

end Percent

end LanguageClient
