import LanguageClient.Url.Error
import LanguageClient.Url.Percent

/-!
# Hosts

A host is a name, an IPv4 address or an IPv6 address in brackets; here it is read into the text that
the URL shows. `Host.read` serves the schemes that need a host, `Host.readOpaque` all others, whose
host is kept as it is but for control characters.

A name ends in a number when its last label, or the one before a final dot, is a decimal, octal or
hexadecimal number. Such a name has to be an IPv4 address and is shown with four decimal numbers.
-/

namespace LanguageClient

namespace Host

/-! ## IPv4 -/

/-- The value of the digits in a base. -/
def numberIn (base : Nat) (text : List Char) : Nat :=
  text.foldl (fun n c => n * base + (Percent.hex? c).getD 0) 0

/-- Whether every character is a digit of the base. -/
def allDigits (base : Nat) (text : List Char) : Bool :=
  text.all fun c => match Percent.hex? c with
    | some n => n < base
    | none => false

/-- The number of a label: hexadecimal after `0x`, octal after `0`, otherwise decimal. -/
def labelNumber? : List Char → Option Nat
  | [] => none
  | '0' :: 'x' :: rest | '0' :: 'X' :: rest =>
    if allDigits 16 rest then some (numberIn 16 rest) else none
  | '0' :: c :: rest => if allDigits 8 (c :: rest) then some (numberIn 8 (c :: rest)) else none
  | text => if allDigits 10 text then some (numberIn 10 text) else none

/-- The labels between the dots. -/
def labels (text : List Char) : List (List Char) :=
  match text with
  | [] => [[]]
  | '.' :: rest => [] :: labels rest
  | c :: rest =>
    match labels rest with
    | [] => [[c]]
    | first :: others => (c :: first) :: others

/-- Whether the last label, or the one before a final dot, is a number. -/
def endsInNumber (text : List Char) : Bool :=
  match (labels text).reverse with
  | [] :: last :: _ => isNumber last
  | last :: _ => isNumber last
  | [] => false
where
  isNumber (label : List Char) : Bool :=
    (!label.isEmpty && label.all Char.isDigit) || (labelNumber? label).isSome

/-- The address of up to four numbers, of which the last fills the bytes that are left. -/
def address? (numbers : List Nat) : Option Nat :=
  match numbers.reverse with
  | [] => none
  | last :: firsts =>
    let count := firsts.length
    if 3 < count then none
    else if firsts.any (255 < ·) then none
    else if Nat.pow 256 (4 - count) ≤ last then none
    else some (firsts.reverse.foldl (fun n k => n * 256 + k) 0 * Nat.pow 256 (4 - count) + last)

/-- The text of an IPv4 address. -/
def dotted (address : Nat) : List Char :=
  (".".intercalate ([24, 16, 8, 0].map fun shift => toString (address / Nat.pow 2 shift % 256))).toList

/-- An IPv4 address as it is shown. -/
def ipv4 (text : List Char) : Except UrlError (List Char) :=
  let parts := labels text
  let parts := if parts.getLast? = some [] then parts.dropLast else parts
  match parts.mapM labelNumber? with
  | none => .error .invalidIpv4
  | some numbers =>
    match address? numbers with
    | none => .error .invalidIpv4
    | some address => .ok (dotted address)

/-! ## IPv6 -/

/-- The groups of an IPv6 address before and after the double colon. -/
structure Groups where
  before : List Nat
  after : Option (List Nat)

/-- The groups read so far. -/
def Groups.count (g : Groups) : Nat := g.before.length + (g.after.getD []).length

def Groups.push (g : Groups) (n : Nat) : Groups :=
  match g.after with
  | none => { g with before := g.before ++ [n] }
  | some after => { g with after := some (after ++ [n]) }

/-- The position of the next group; the double colon takes one. -/
def Groups.position (g : Groups) : Nat := g.count + if g.after.isSome then 1 else 0

/-- A decimal number up to 255 without a leading zero, and what follows it. -/
def byte? (text : List Char) : Option (Nat × List Char) :=
  let ds := text.takeWhile Char.isDigit
  let n := numberIn 10 ds
  if ds.isEmpty || (ds.head? = some '0' && 1 < ds.length) || 255 < n then none
  else some (n, text.dropWhile Char.isDigit)

/-- Four decimal numbers with dots between them. -/
def quad? (text : List Char) : Option (List Nat) := do
  let (a, rest) ← byte? text
  let (b, rest) ← dot rest >>= byte?
  let (c, rest) ← dot rest >>= byte?
  let (d, rest) ← dot rest >>= byte?
  if rest.isEmpty then some [a * 256 + b, c * 256 + d] else none
where
  dot : List Char → Option (List Char)
    | '.' :: rest => some rest
    | _ => none

/-- The groups that follow, of which at most eight fit with the double colon counted as one. -/
def groups? (fuel : Nat) (g : Groups) (text : List Char) : Option Groups :=
  match fuel, text with
  | 0, _ => none
  | _, [] => some g
  | fuel + 1, ':' :: rest =>
    if g.position = 8 || g.after.isSome then none else groups? fuel { g with after := some [] } rest
  | fuel + 1, text =>
    if g.position = 8 then none
    else
      let ds := (text.take 4).takeWhile fun c => (Percent.hex? c).isSome
      match text.drop ds.length with
      | [] => some (g.push (numberIn 16 ds))
      | '.' :: _ =>
        if ds.isEmpty || 6 < g.position then none
        else (quad? text).map fun ns => ns.foldl Groups.push g
      | ':' :: rest =>
        if rest.isEmpty then none else groups? fuel (g.push (numberIn 16 ds)) rest
      | _ => none

/-- The eight groups of an IPv6 address. -/
def ipv6? (text : List Char) : Option (List Nat) := do
  if text.length < 2 then none
  let g ←
    match text with
    | ':' :: ':' :: rest => groups? (text.length + 1) ⟨[], some []⟩ rest
    | ':' :: _ => none
    | _ => groups? (text.length + 1) ⟨[], none⟩ text
  match g.after with
  | none => if g.before.length = 8 then some g.before else none
  | some after => some (g.before ++ List.replicate (8 - g.count) 0 ++ after)

/-- The longest run of zero groups, the first of several, as its start and its length. -/
def longestZeros (groups : List Nat) : Nat × Nat :=
  go 0 groups (0, 0)
where
  go (i : Nat) (groups : List Nat) (best : Nat × Nat) : Nat × Nat :=
    match groups with
    | [] => best
    | _ :: rest =>
      let run := (groups.takeWhile (· = 0)).length
      go (i + 1) rest (if best.2 < run then (i, run) else best)

/-- Groups in hexadecimal with colons between them. -/
def hexGroups (groups : List Nat) : List Char :=
  List.intercalate [':'] (groups.map (Nat.toDigits 16))

/-- The text of an IPv6 address: the longest run of two or more zero groups is left out. -/
def showIpv6 (groups : List Nat) : List Char :=
  let (start, run) := longestZeros groups
  if run < 2 then hexGroups groups
  else hexGroups (groups.take start) ++ "::".toList ++ hexGroups (groups.drop (start + run))

/-- A host that starts with a bracket, as it is shown. -/
def bracketed (text : List Char) : Except UrlError (List Char) :=
  if text.getLast? ≠ some ']' then .error .invalidIpv6
  else
    match ipv6? (text.drop 1).dropLast with
    | none => .error .invalidIpv6
    | some groups => .ok ('[' :: showIpv6 groups ++ [']'])

/-! ## Names -/

/-- What no name of a host may contain. -/
def forbiddenInName (c : Char) : Bool :=
  c.toNat ≤ 32 || 126 < c.toNat || c = '#' || c = '%' || c = '/' || c = ':' || c = '<' || c = '>' ||
    c = '?' || c = '@' || c = '[' || c = '\\' || c = ']' || c = '^' || c = '|'

/-- What no opaque host may contain. -/
def forbiddenInOpaque (c : Char) : Bool :=
  c.toNat = 0 || c = '\t' || c = '\n' || c = '\r' || c = ' ' || c = '#' || c = '/' || c = ':' ||
    c = '<' || c = '>' || c = '?' || c = '@' || c = '[' || c = '\\' || c = ']' || c = '^' || c = '|'

/-- The host of a scheme that needs one, as it is shown. -/
def read (text : List Char) : Except UrlError (List Char) :=
  if text.head? = some '[' then bracketed text
  else
    match Percent.decodeAscii? text with
    | none => .error .invalidDomainName
    | some name =>
      if name.any forbiddenInName then .error .invalidDomainName
      else if name.isEmpty then .error .emptyHost
      else
        let name := name.map Char.toLower
        if endsInNumber name then ipv4 name else .ok name

/-- The host of any other scheme, as it is shown. -/
def readOpaque (text : List Char) : Except UrlError (List Char) :=
  if text.head? = some '[' then bracketed text
  else if text.any forbiddenInOpaque then .error .invalidDomainCharacter
  else .ok (Percent.encode Percent.control text)

end Host

end LanguageClient
