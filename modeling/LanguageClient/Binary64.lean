/-!
# Finite binary floating-point numbers

A number here is `± mantissa · 2 ^ exponent` with at most 53 bits of mantissa, in the one form that
the format allows: either the mantissa has all 53 bits, or the exponent is the least one. Zero keeps
its sign. Infinities and the undefined value are not numbers of this type: an operation that leaves
the finite range answers `none`.

Every operation is one exact quotient of natural numbers followed by one rounding to the nearest
representable value, ties to the even mantissa.
-/

namespace LanguageClient

/-- A finite number of 53-bit precision. -/
structure Binary64 where
  negative : Bool
  mantissa : Nat
  exponent : Int
  deriving DecidableEq, Repr

namespace Binary64

/-- The exponent of the smallest representable step. -/
def leastExponent : Int := -1074

/-- The exponent of the largest representable step. -/
def greatestExponent : Int := 971

def zero (negative : Bool) : Binary64 := ⟨negative, 0, leastExponent⟩

instance : Inhabited Binary64 := ⟨zero false⟩

def neg (x : Binary64) : Binary64 := { x with negative := !x.negative }

/-- `2 ^ n` for a nonnegative exponent and one for a negative one. -/
def up (n : Int) : Nat := Nat.pow 2 n.toNat

/-- The quotient rounded to the nearest natural number, ties to the even one. -/
def divNearest (num den : Nat) : Nat :=
  let q := num / den
  let r := 2 * (num % den)
  if r < den then q else if den < r then q + 1 else q + q % 2

/-- The exponent at which the quotient has a 53-bit integer part, or the least exponent. -/
def stepOf (num den : Nat) : Int :=
  let guess : Int := max (Nat.log2 num - Nat.log2 den - 53) leastExponent
  if Nat.pow 2 53 ≤ num * up (-guess) / (den * up guess) then guess + 1 else guess

/-- The representable number nearest to `num / den`; none when it is out of range. -/
def ofRatio? (negative : Bool) (num den : Nat) : Option Binary64 :=
  if num = 0 then some (zero negative)
  else
    let e := stepOf num den
    let m := divNearest (num * up (-e)) (den * up e)
    let (m, e) := if m = Nat.pow 2 53 then (Nat.pow 2 52, e + 1) else (m, e)
    if greatestExponent < e then none else some ⟨negative, m, e⟩

def ofNat? (negative : Bool) (n : Nat) : Option Binary64 := ofRatio? negative n 1

def numerator (x : Binary64) : Nat := x.mantissa * up x.exponent

def denominator (x : Binary64) : Nat := up (-x.exponent)

/-- The rounded product; none when it is out of range. -/
def mul? (x y : Binary64) : Option Binary64 :=
  ofRatio? (x.negative != y.negative) (x.numerator * y.numerator) (x.denominator * y.denominator)

/-- The rounded quotient by a nonzero number; none when it is out of range. -/
def div? (x y : Binary64) : Option Binary64 :=
  ofRatio? (x.negative != y.negative) (x.numerator * y.denominator) (x.denominator * y.numerator)

/-- The representable number nearest to `10 ^ n`; none when it is out of range. -/
def powTen? (n : Nat) : Option Binary64 :=
  if n ≤ 308 then ofNat? false (Nat.pow 10 n) else none

end Binary64

end LanguageClient
