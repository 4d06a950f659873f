import LanguageClient.Binary64

/-!
# Shortest decimal digits

`Binary64.digits` gives the fewest decimal digits that still single a number out among all
representable ones, and the position of the decimal point. Of several candidates with that many
digits the nearest to the number is taken.

The interval of reals that round to the number is compared with the points of a decimal grid in
exact natural-number arithmetic. For one, two, … digits only the two grid points around the number
can lie in the interval with nothing shorter doing so.
-/

namespace LanguageClient

namespace Binary64

/-- The digits `0.d₁d₂… · 10 ^ point` of a magnitude. -/
structure Decimal where
  digits : List Char
  point : Int
  deriving DecidableEq, Repr

/-- The interval of magnitudes that round to a number, over a common denominator. -/
structure Interval where
  low : Nat
  value : Nat
  high : Nat
  denominator : Nat
  closed : Bool

/-- The interval around a nonzero number: half a step up, and half a step down, or a quarter where
the step below is smaller. -/
def interval (x : Binary64) : Interval :=
  let e := x.exponent - 2
  let below := if x.mantissa = Nat.pow 2 52 ∧ leastExponent < x.exponent then 1 else 2
  { low := (4 * x.mantissa - below) * up e
    value := 4 * x.mantissa * up e
    high := (4 * x.mantissa + 2) * up e
    denominator := up (-e)
    closed := x.mantissa % 2 = 0 }

/-- Whether the grid point `c · 10 ^ k` lies in the interval. -/
def Interval.holds (i : Interval) (c : Nat) (k : Int) : Bool :=
  let point := c * Nat.pow 10 k.toNat * i.denominator
  let scale := Nat.pow 10 (-k).toNat
  if i.closed then decide (i.low * scale ≤ point ∧ point ≤ i.high * scale)
  else decide (i.low * scale < point ∧ point < i.high * scale)

/-- The grid point next below the value at grid step `10 ^ k`. -/
def Interval.floor (i : Interval) (k : Int) : Nat :=
  i.value * Nat.pow 10 (-k).toNat / (i.denominator * Nat.pow 10 k.toNat)

/-- Twice the distance from the lower grid point, over the grid step: below one half is nearer down. -/
def Interval.upperIsNearer (i : Interval) (c : Nat) (k : Int) : Bool :=
  let v := i.value * Nat.pow 10 (-k).toNat
  let step := i.denominator * Nat.pow 10 k.toNat
  let r := 2 * (v - c * step)
  decide (step < r ∨ (r = step ∧ c % 2 = 1))

/-- The grid point of the interval nearest to the value at grid step `10 ^ k`, if there is one. -/
def Interval.nearest? (i : Interval) (k : Int) : Option Nat :=
  let c := i.floor k
  match i.holds c k && c != 0, i.holds (c + 1) k with
  | true, true => some (if i.upperIsNearer c k then c + 1 else c)
  | true, false => some c
  | false, true => some (c + 1)
  | false, false => none

/-- The number of digits before the decimal point, zero or less for a number below one tenth. -/
def magnitude (x : Binary64) : Int :=
  let below (d : Int) : Bool :=
    decide (x.numerator * Nat.pow 10 (-d).toNat < x.denominator * Nat.pow 10 d.toNat)
  let guess : Int := (Nat.log2 x.mantissa + x.exponent) * 30103 / 100000
  if below guess then guess else if below (guess + 1) then guess + 1 else guess + 2

/-- Tries `n`, `n + 1`, … digits, at most `fuel` times. -/
def search (i : Interval) (d : Int) : Nat → Nat → Option (Nat × Int)
  | _, 0 => none
  | n, fuel + 1 =>
    match i.nearest? (d - n) with
    | some c => some (c, d - n)
    | none => search i d (n + 1) fuel

/-- The shortest digits of a magnitude. Zero has the one digit `0`. -/
def digits (x : Binary64) : Decimal :=
  if x.mantissa = 0 then ⟨['0'], 1⟩
  else
    match search x.interval x.magnitude 1 17 with
    | none => ⟨['0'], 1⟩
    | some (c, k) =>
      let written := Nat.toDigits 10 c
      let trimmed := (written.reverse.dropWhile (· = '0')).reverse
      ⟨trimmed, written.length + k⟩

end Binary64

/-- Where a number is written with a decimal point and where with an exponent. -/
structure DecimalStyle where
  /-- The greatest number of digits before the point in positional notation. -/
  greatestPoint : Int
  /-- The least position of the point in positional notation. -/
  leastPoint : Int
  /-- What is written in front of a positive exponent. -/
  plus : String

/-- The sign, the digits with a point or an exponent; an integral number in positional notation ends
in `.0`. -/
def DecimalStyle.render (style : DecimalStyle) (x : Binary64) : String :=
  let ⟨ds, point⟩ := x.digits
  let sign := if x.negative then "-" else ""
  let body :=
    if style.leastPoint ≤ point ∧ point ≤ style.greatestPoint then
      if point ≤ 0 then "0." ++ String.ofList (List.replicate (-point).toNat '0' ++ ds)
      else
        let n := point.toNat
        let whole := ds.take n ++ List.replicate (n - ds.length) '0'
        let rest := ds.drop n
        String.ofList (whole ++ '.' :: (if rest.isEmpty then ['0'] else rest))
    else
      let head := ds.take 1
      let rest := ds.drop 1
      let e := point - 1
      let mark := if e < 0 then "e-" else "e" ++ style.plus
      String.ofList (if rest.isEmpty then head else head ++ '.' :: rest) ++ mark ++ toString e.natAbs
  sign ++ body

end LanguageClient
