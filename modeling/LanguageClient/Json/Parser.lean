import LanguageClient.Json

/-!
# Reading JSON text

`Json.parse?` reads one value and refuses anything after it but blanks. Arrays and objects may be
nested 127 deep: a value at depth 128 is refused, as is text that is no JSON. The reader works on
the characters that are left; each part answers what it read and the rest.

Integers that fit 64 bits stay integers. Every other number becomes a binary floating-point number
in one multiplication or division by a power of ten: the significand is the digits that fit 64 bits
without a sign, later ones count for the exponent only. `-0` is a floating-point number.
-/

namespace LanguageClient

namespace Json

/-- The greatest number of arrays and objects that are open at once, and one. -/
def nestingLimit : Nat := 128

/-- Blank, tab, line feed and carriage return. -/
def isBlank (c : Char) : Bool := c = ' ' || c = '\t' || c = '\n' || c = '\r'

def skipBlanks : List Char → List Char
  | [] => []
  | c :: rest => if isBlank c then skipBlanks rest else c :: rest

def expect : List Char → List Char → Option (List Char)
  | [], rest => some rest
  | _ :: _, [] => none
  | c :: cs, d :: rest => if c = d then expect cs rest else none

/-! ## Strings -/

def hexValue? (c : Char) : Option Nat :=
  if '0' ≤ c ∧ c ≤ '9' then some (c.toNat - 48)
  else if 'a' ≤ c ∧ c ≤ 'f' then some (c.toNat - 87)
  else if 'A' ≤ c ∧ c ≤ 'F' then some (c.toNat - 55)
  else none

/-- The value of four hexadecimal digits and what follows them. -/
def hexFour? : List Char → Option (Nat × List Char)
  | a :: b :: c :: d :: rest => do
    let a ← hexValue? a
    let b ← hexValue? b
    let c ← hexValue? c
    let d ← hexValue? d
    some (((a * 16 + b) * 16 + c) * 16 + d, rest)
  | _ => none

/-- The character of a code point that is no surrogate. -/
def charOf? (n : Nat) : Option Char :=
  if h : n.isValidChar then some (Char.ofNatAux n h) else none

/-- The character after `\u`: a code point, or two surrogates that make one. -/
def unicodeEscape? (rest : List Char) : Option (Char × List Char) := do
  let (n, rest) ← hexFour? rest
  if 0xDC00 ≤ n ∧ n ≤ 0xDFFF then none
  else if 0xD800 ≤ n ∧ n ≤ 0xDBFF then
    match rest with
    | '\\' :: 'u' :: rest => do
      let (m, rest) ← hexFour? rest
      if 0xDC00 ≤ m ∧ m ≤ 0xDFFF then
        let c ← charOf? (0x10000 + (n - 0xD800) * 0x400 + (m - 0xDC00))
        some (c, rest)
      else none
    | _ => none
  else do
    let c ← charOf? n
    some (c, rest)

/-- The characters of a string after its opening quote, and what follows its closing quote. -/
def stringBody (fuel : Nat) (rest : List Char) : Option (List Char × List Char) :=
  match fuel, rest with
  | 0, _ | _, [] => none
  | _, '"' :: rest => some ([], rest)
  | fuel + 1, '\\' :: c :: rest => do
    let (c, rest) ←
      match c with
      | '"' => some ('"', rest)
      | '\\' => some ('\\', rest)
      | '/' => some ('/', rest)
      | 'b' => some ('\x08', rest)
      | 'f' => some ('\x0c', rest)
      | 'n' => some ('\n', rest)
      | 'r' => some ('\r', rest)
      | 't' => some ('\t', rest)
      | 'u' => unicodeEscape? rest
      | _ => none
    let (cs, rest) ← stringBody fuel rest
    some (c :: cs, rest)
  | fuel + 1, c :: rest =>
    if c.toNat < 32 || c = '\\' then none
    else do
      let (cs, rest) ← stringBody fuel rest
      some (c :: cs, rest)

/-! ## Numbers -/

/-- The digits in front and what follows them. -/
def spanDigits : List Char → List Char × List Char
  | [] => ([], [])
  | c :: rest =>
    if c.isDigit then
      let (ds, rest) := spanDigits rest
      (c :: ds, rest)
    else ([], c :: rest)

def digitValue (c : Char) : Nat := c.toNat - 48

/-- The digits that keep the significand within 64 bits, and how many were left out. -/
def accumulate (significand : Nat) : List Char → Nat × Nat
  | [] => (significand, 0)
  | c :: cs =>
    let next := significand * 10 + digitValue c
    if greatestNatural < next then (significand, cs.length + 1) else accumulate next cs

/-- `significand · 10 ^ exponent` in steps of `10 ^ 308`; none when it is out of range. -/
def scale? (x : Binary64) (exponent : Int) (fuel : Nat) : Option Binary64 :=
  match fuel with
  | 0 => some x
  | fuel + 1 =>
    if exponent.natAbs ≤ 308 then do
      let power ← Binary64.powTen? exponent.natAbs
      if 0 ≤ exponent then x.mul? power else x.div? power
    else if x.mantissa = 0 then some x
    else if 0 ≤ exponent then none
    else do
      let power ← Binary64.powTen? 308
      let x ← x.div? power
      scale? x (exponent + 308) fuel

/-- The floating-point number of a significand and a decimal exponent. -/
def float? (negative : Bool) (significand : Nat) (exponent : Int) : Option Number := do
  let x ← Binary64.ofNat? false significand
  let x ← scale? x exponent 5
  some (.float (if negative then x.neg else x))

/-- The digits after `e`, with their sign, and what follows them. -/
def exponent? : List Char → Option (Int × List Char)
  | '+' :: rest =>
    let (ds, rest) := spanDigits rest
    if ds.isEmpty then none else some (ds.foldl (fun n c => n * 10 + digitValue c) 0, rest)
  | '-' :: rest =>
    let (ds, rest) := spanDigits rest
    if ds.isEmpty then none else some (-ds.foldl (fun n c => n * 10 + digitValue c) 0, rest)
  | rest =>
    let (ds, rest) := spanDigits rest
    if ds.isEmpty then none else some (ds.foldl (fun n c => n * 10 + digitValue c) 0, rest)

/-- The number of a significand after which a decimal exponent may come. -/
def withExponent? (negative : Bool) (significand : Nat) (exponent : Int) (rest : List Char) :
    Option (Number × List Char) :=
  match rest with
  | 'e' :: rest | 'E' :: rest => do
    let (e, rest) ← exponent? rest
    let n ← float? negative significand (exponent + e)
    some (n, rest)
  | rest => do
    let n ← float? negative significand exponent
    some (n, rest)

/-- An integer, or a float where the integer is out of range or is `-0`. -/
def integer? (negative : Bool) (significand : Nat) : Option Number :=
  if negative then
    if significand = 0 ∨ Nat.pow 2 63 < significand then do
      let x ← Binary64.ofNat? true significand
      some (.float x)
    else some (.int (-significand))
  else some (.int significand)

/-- The integer digits of a number: `0`, or digits that do not start with it. -/
def wholeDigits? (rest : List Char) : Option (List Char × List Char) :=
  match spanDigits rest with
  | ([], _) => none
  | ('0' :: _ :: _, _) => none
  | (ds, rest) => some (ds, rest)

def unsignedNumber? (negative : Bool) (rest : List Char) : Option (Number × List Char) := do
  let (ds, rest) ← wholeDigits? rest
  let (significand, surplus) := accumulate 0 ds
  match rest with
  | '.' :: rest =>
    let (fraction, rest) := spanDigits rest
    if fraction.isEmpty then none
    else
      let (significand, left) := accumulate significand fraction
      withExponent? negative significand (surplus - (fraction.length - left : Nat)) rest
  | 'e' :: _ | 'E' :: _ => withExponent? negative significand surplus rest
  | _ =>
    if surplus = 0 then do
      let n ← integer? negative significand
      some (n, rest)
    else withExponent? negative significand surplus rest

def number? : List Char → Option (Number × List Char)
  | '-' :: rest => unsignedNumber? true rest
  | rest => unsignedNumber? false rest

/-! ## Values -/

mutual

/-- The value in front, where `depth` more arrays and objects may be opened. -/
def value? (fuel depth : Nat) (rest : List Char) : Option (Json × List Char) :=
  match fuel with
  | 0 => none
  | fuel + 1 =>
    match skipBlanks rest with
    | [] => none
    | 'n' :: rest => (expect "ull".toList rest).map fun rest => (.null, rest)
    | 't' :: rest => (expect "rue".toList rest).map fun rest => (.bool true, rest)
    | 'f' :: rest => (expect "alse".toList rest).map fun rest => (.bool false, rest)
    | '"' :: rest => do
      let (cs, rest) ← stringBody (rest.length + 1) rest
      some (.str (String.ofList cs), rest)
    | '[' :: rest =>
      if depth ≤ 1 then none
      else
        match skipBlanks rest with
        | ']' :: rest => some (.arr [], rest)
        | rest => do
          let (items, rest) ← items? fuel (depth - 1) rest
          some (.arr items, rest)
    | '\x7b' :: rest =>
      if depth ≤ 1 then none
      else
        match skipBlanks rest with
        | '\x7d' :: rest => some (.obj [], rest)
        | rest => do
          let (fields, rest) ← fields? fuel (depth - 1) rest
          some (object fields, rest)
    | c :: rest =>
      if c = '-' || c.isDigit then do
        let (n, rest) ← number? (c :: rest)
        some (.num n, rest)
      else none

/-- The items of an array up to its closing bracket. -/
def items? (fuel depth : Nat) (rest : List Char) : Option (List Json × List Char) :=
  match fuel with
  | 0 => none
  | fuel + 1 => do
    let (item, rest) ← value? fuel depth rest
    match skipBlanks rest with
    | ']' :: rest => some ([item], rest)
    | ',' :: rest => do
      let (items, rest) ← items? fuel depth rest
      some (item :: items, rest)
    | _ => none

/-- The fields of an object up to its closing brace. -/
def fields? (fuel depth : Nat) (rest : List Char) : Option (List (String × Json) × List Char) :=
  match fuel with
  | 0 => none
  | fuel + 1 =>
    match skipBlanks rest with
    | '"' :: rest => do
      let (key, rest) ← stringBody (rest.length + 1) rest
      match skipBlanks rest with
      | ':' :: rest => do
        let (value, rest) ← value? fuel depth rest
        match skipBlanks rest with
        | '\x7d' :: rest => some ([(String.ofList key, value)], rest)
        | ',' :: rest => do
          let (fields, rest) ← fields? fuel depth rest
          some ((String.ofList key, value) :: fields, rest)
        | _ => none
      | _ => none
    | _ => none

end

def parseChars? (chars : List Char) : Option Json :=
  match value? (chars.length + 1) nestingLimit chars with
  | some (value, rest) => if (skipBlanks rest).isEmpty then some value else none
  | none => none

/-- The value that is the whole text, but for blanks around it. -/
def parse? (text : String) : Option Json := parseChars? text.toList

end Json

end LanguageClient
