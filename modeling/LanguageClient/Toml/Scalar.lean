import LanguageClient.Toml.Value

/-!
# Words of TOML

The values that are written without quotes or brackets: truth values, integers, floating-point
numbers, and moments in time. Digits may be grouped by underscores between two digits. A decimal
number has no leading zero.
-/

namespace LanguageClient

namespace Toml

/-- The value of a digit in the base. -/
def digitIn? (base : Nat) (c : Char) : Option Nat :=
  let n? : Option Nat :=
    if '0' ≤ c ∧ c ≤ '9' then some (c.toNat - 48)
    else if 'a' ≤ c ∧ c ≤ 'f' then some (c.toNat - 87)
    else if 'A' ≤ c ∧ c ≤ 'F' then some (c.toNat - 55)
    else none
  n?.filter (· < base)

/-- Whether the character is a digit in the base. -/
def isDigitIn (base : Nat) (c : Char) : Bool := (digitIn? base c).isSome

/-- The digits without the underscores between them; none where anything else is found. -/
def ungroup? (base : Nat) : List Char → Option (List Char)
  | [] => none
  | [c] => if isDigitIn base c then some [c] else none
  | c :: '_' :: rest => if isDigitIn base c then (ungroup? base rest).map (c :: ·) else none
  | c :: rest => if isDigitIn base c then (ungroup? base rest).map (c :: ·) else none

/-- The number that digits of the base write. -/
def ofDigits (base : Nat) (digits : List Char) : Nat :=
  digits.foldl (fun n c => n * base + (digitIn? base c).getD 0) 0

/-- A sign and what follows it. -/
def splitSign : List Char → Option Char × List Char
  | '+' :: rest => (some '+', rest)
  | '-' :: rest => (some '-', rest)
  | rest => (none, rest)

/-- The digits of a decimal number: no leading zero but the only digit. -/
def decimalDigits? (text : List Char) : Option (List Char) := do
  let digits ← ungroup? 10 text
  match digits with
  | '0' :: _ :: _ => none
  | digits => some digits

/-- An integer: decimal with or without a sign, or hexadecimal, octal or binary. -/
def integer? (text : List Char) : Option Int :=
  match text with
  | '0' :: 'x' :: rest => (ungroup? 16 rest).map fun ds => (ofDigits 16 ds : Int)
  | '0' :: 'o' :: rest => (ungroup? 8 rest).map fun ds => (ofDigits 8 ds : Int)
  | '0' :: 'b' :: rest => (ungroup? 2 rest).map fun ds => (ofDigits 2 ds : Int)
  | text =>
    let (sign, rest) := splitSign text
    (decimalDigits? rest).map fun ds =>
      let n : Int := ofDigits 10 ds
      if sign = some '-' then -n else n

/-- `significand · 10 ^ exponent` rounded once; none when it is out of range. -/
def decimal? (negative : Bool) (significand : Nat) (exponent : Int) : Option Binary64 :=
  if significand = 0 then some (Binary64.zero negative)
  else
    let size : Int := (Nat.toDigits 10 significand).length
    if 400 < exponent + size then none
    else if exponent + size < -400 then some (Binary64.zero negative)
    else
      Binary64.ofRatio? negative (significand * Nat.pow 10 exponent.toNat)
        (Nat.pow 10 (-exponent).toNat)

/-- The number after the `e` of a floating-point number. -/
def exponent? (text : List Char) : Option Int :=
  let (sign, rest) := splitSign text
  (ungroup? 10 rest).map fun ds =>
    let n : Int := ofDigits 10 ds
    if sign = some '-' then -n else n

/-- A floating-point number: a fraction, an exponent, or both after a decimal number; or a number
that is not finite. -/
def float? (text : List Char) : Option Value := do
  let (sign, rest) := splitSign text
  let negative := sign = some '-'
  if rest = "inf".toList ∨ rest = "nan".toList then some .notFinite
  else
    let isMark (c : Char) : Bool := c = 'e' || c = 'E'
    let main := rest.takeWhile fun c => !isMark c
    let exponent ← match rest.drop main.length with
      | [] => some 0
      | _ :: rest => exponent? rest
    let whole := main.takeWhile (· ≠ '.')
    let digits ← decimalDigits? whole
    match main.drop whole.length with
    | [] =>
      if main.length = rest.length then none
      else (decimal? negative (ofDigits 10 digits) exponent).map .float
    | _ :: fraction => do
      let fraction ← ungroup? 10 fraction
      (decimal? negative (ofDigits 10 (digits ++ fraction)) (exponent - fraction.length)).map .float

/-! ## Moments -/

/-- A number of exactly so many digits, and what follows it. -/
def digits? (count : Nat) (text : List Char) : Option (Nat × List Char) :=
  let ds := text.take count
  if ds.length = count ∧ ds.all (isDigitIn 10) then some (ofDigits 10 ds, text.drop count) else none

/-- What follows the character. -/
def after? (c : Char) : List Char → Option (List Char)
  | d :: rest => if c = d then some rest else none
  | [] => none

/-- Two digits at least. -/
def pad (n : Nat) : String := if n < 10 then s!"0{n}" else toString n

/-- Four digits at least. -/
def padYear (n : Nat) : String :=
  let text := toString n
  String.ofList (List.replicate (4 - text.length) '0') ++ text

/-- The number of days of a month. -/
def daysIn (year month : Nat) : Nat :=
  if month = 2 then
    if year % 4 = 0 ∧ (year % 100 ≠ 0 ∨ year % 400 = 0) then 29 else 28
  else if month = 4 ∨ month = 6 ∨ month = 9 ∨ month = 11 then 30
  else 31

/-- A date as it is shown, and what follows it. -/
def date? (text : List Char) : Option (String × List Char) := do
  let (year, rest) ← digits? 4 text
  let (month, rest) ← after? '-' rest >>= digits? 2
  let (day, rest) ← after? '-' rest >>= digits? 2
  if 1 ≤ month ∧ month ≤ 12 ∧ 1 ≤ day ∧ day ≤ daysIn year month then
    some (padYear year ++ "-" ++ pad month ++ "-" ++ pad day, rest)
  else none

/-- The digits of a fraction of a second as they are shown: at most nine, without zeros at the end
but the only digit. -/
def fractionText (digits : List Char) : String :=
  let kept := ((digits.take 9).reverse.dropWhile (· = '0')).reverse
  if kept.isEmpty then "0" else String.ofList kept

/-- A time as it is shown, and what follows it. Seconds may be left out. -/
def time? (text : List Char) : Option (String × List Char) := do
  let (hour, rest) ← digits? 2 text
  let (minute, rest) ← after? ':' rest >>= digits? 2
  if 23 < hour ∨ 59 < minute then none
  else
    let head := pad hour ++ ":" ++ pad minute
    match rest with
    | ':' :: rest => do
      let (second, rest) ← digits? 2 rest
      if 60 < second then none
      else
        match rest with
        | '.' :: rest =>
          let fraction := rest.takeWhile (isDigitIn 10)
          if fraction.isEmpty then none
          else some (head ++ ":" ++ pad second ++ "." ++ fractionText fraction,
            rest.drop fraction.length)
        | rest => some (head ++ ":" ++ pad second, rest)
    | rest => some (head, rest)

/-- The distance from universal time as it is shown; nothing for a local time. -/
def offset? (text : List Char) : Option String :=
  match text with
  | [] => some ""
  | ['Z'] | ['z'] => some "Z"
  | sign :: rest =>
    if sign = '+' ∨ sign = '-' then do
      let (hours, rest) ← digits? 2 rest
      let (minutes, rest) ← after? ':' rest >>= digits? 2
      if 23 < hours ∨ 59 < minutes ∨ ¬rest.isEmpty then none
      else
        let sign := if hours = 0 ∧ minutes = 0 then '+' else sign
        some (String.ofList [sign] ++ pad hours ++ ":" ++ pad minutes)
    else none

/-- A date, a time, or both with or without the distance from universal time, as it is shown. -/
def moment? (text : List Char) : Option String :=
  match date? text with
  | some (date, []) => some date
  | some (date, c :: rest) =>
    if c = 'T' ∨ c = 't' ∨ c = ' ' then do
      let (time, rest) ← time? rest
      let offset ← offset? rest
      some (date ++ "T" ++ time ++ offset)
    else none
  | none =>
    match time? text with
    | some (time, []) => some time
    | _ => none

/-- The value of a word. -/
def word? (text : List Char) : Option Value :=
  if text = "true".toList then some (.bool true)
  else if text = "false".toList then some (.bool false)
  else
    ((integer? text).map .integer).or ((float? text).or ((moment? text).map .moment))

end Toml

end LanguageClient
