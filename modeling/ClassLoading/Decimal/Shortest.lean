/-!
# Shortest decimals

A floating-point number stands for all reals that round to it. It is written by the fewest decimal
digits that lie among them, and of those by the ones nearest to the number itself; of two equally
near the larger. All is reckoned exactly, on natural numbers.
-/

namespace ClassLoading

/-- The number `digits * 10 ^ exponent`. -/
structure Decimal where
  digits : Nat
  exponent : Int
  deriving DecidableEq

namespace Decimal

/-- The reals between `low / unit` and `high / unit` around `value / unit`, with or without the
ends. -/
structure Interval where
  low : Nat
  value : Nat
  high : Nat
  unit : Nat
  closed : Bool

namespace Interval

/-- Whether `n / unit` lies in the interval. -/
def contains (i : Interval) (n : Nat) : Bool :=
  (i.low < n && n < i.high) || (i.closed && (n == i.low || n == i.high))

/-- The multiple of `step / unit` in the interval nearest to the value, if there is one. -/
def nearestMultiple? (i : Interval) (step : Nat) : Option Nat :=
  let below := i.value / step
  let above := below + 1
  match i.contains (below * step), i.contains (above * step) with
  | true, true => some (if 2 * (i.value % step) < step then below else above)
  | true, false => some below
  | false, true => some above
  | false, false => none

/-- The interval with all bounds multiplied by a number, in the same units. -/
def scale (i : Interval) (n : Nat) : Interval :=
  ⟨i.low * n, i.value * n, i.high * n, i.unit, i.closed⟩

/-- The decimal with the given exponent in the interval that is nearest to the value. -/
def decimal? (i : Interval) (exponent : Int) : Option Decimal :=
  let digits :=
    if 0 ≤ exponent then i.nearestMultiple? (Nat.pow 10 exponent.toNat * i.unit)
    else (i.scale (Nat.pow 10 (-exponent).toNat)).nearestMultiple? i.unit
  digits.map fun digits => ⟨digits, exponent⟩

/-- The first decimal found, going down from an exponent by up to `most` steps. -/
def search (i : Interval) : (most : Nat) → (exponent : Int) → Option Decimal
  | 0, _ => none
  | most + 1, exponent =>
    match i.decimal? exponent with
    | some d => some d
    | none => search i most (exponent - 1)

/-- An exponent for which the powers of ten lie above the interval. -/
def topExponent (i : Interval) : Int :=
  let bits : Int := i.high.log2 - i.unit.log2 + 1
  bits * 30103 / 100000 + 2

end Interval

/-- The reals that round to `mantissa * 2 ^ exponent`. Below the smallest mantissa the numbers lie
twice as close, if there are any closer ones. -/
def roundingInterval (mantissa : Nat) (exponent : Int) (closerBelow : Bool) : Interval :=
  let scale := 1 <<< exponent.toNat
  let low := 4 * mantissa - if closerBelow then 1 else 2
  ⟨low * scale, 4 * mantissa * scale, (4 * mantissa + 2) * scale, 4 <<< (-exponent).toNat,
    mantissa % 2 == 0⟩

/-- No 64-bit number needs more than seventeen digits, and the search starts at most four places
too high. -/
def searchSteps : Nat := 24

/-- The shortest decimal of a finite 64-bit number other than zero, given the bits of its
magnitude. -/
def shortest (magnitude : Nat) : Decimal :=
  let fraction : Nat := magnitude % (1 <<< 52)
  let scale : Nat := magnitude / (1 <<< 52)
  let interval :=
    if scale = 0 then roundingInterval fraction (-1074) false
    else roundingInterval ((1 <<< 52) + fraction) ((scale : Int) - 1075) (fraction == 0 && scale != 1)
  (interval.search searchSteps interval.topExponent).getD ⟨0, 0⟩

/-- A decimal without an exponent, and without a point unless it has places after it. -/
def positional (d : Decimal) : String :=
  let digits := Nat.toDigits 10 d.digits
  if 0 ≤ d.exponent then String.ofList (digits ++ List.replicate d.exponent.toNat '0')
  else
    let places := (-d.exponent).toNat
    let digits := List.replicate (places + 1 - digits.length) '0' ++ digits
    let whole := digits.length - places
    String.ofList (digits.take whole ++ '.' :: digits.drop whole)

/-- The text of a magnitude: the absolute value of a 64-bit number. -/
def magnitudeText (magnitude : Nat) : String :=
  if magnitude = 0 then "0"
  else if magnitude / (1 <<< 52) = 2047 then "inf"
  else (shortest magnitude).positional

/-- The text of a 64-bit floating-point number, given its bits. A not-a-number has no sign. -/
def floatText (bits : UInt64) : String :=
  let magnitude := bits.toNat % (1 <<< 63)
  if 2047 <<< 52 < magnitude then "NaN"
  else if bits.toNat < 1 <<< 63 then magnitudeText magnitude
  else "-" ++ magnitudeText magnitude

end Decimal

end ClassLoading
