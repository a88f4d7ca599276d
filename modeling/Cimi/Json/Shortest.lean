import Cimi.Json.Double
import Cimi.Text.Decimal

/-!
# Shortest decimals

The decimal with the fewest digits among those nearer to a magnitude than to any other, and of
these the nearest (`Magnitude.shortest`).  The magnitudes that round to `x` fill an interval
(`Magnitude.interval`), which holds its ends if and only if the mantissa is even.  A grid of
decimals meets the interval only if a neighbour of `x` on the grid lies in it, so each grid is
tried with the two neighbours alone.
-/

namespace Cimi.Json

/-- A decimal `digits * 10 ^ exponent`. -/
structure DecimalNumber where
  digits : Nat
  exponent : Int
deriving DecidableEq, Repr, Inhabited

namespace Magnitude

/-- Numbers that round to a magnitude: between `low / den` and `high / den`, where the magnitude
itself is `mid / den`. -/
structure Interval where
  low : Nat
  mid : Nat
  high : Nat
  den : Nat
  closed : Bool

/-- The numbers that round to a magnitude.  The gap below the least mantissa of 53 digits is half
as wide as the gap above it. -/
def interval (x : Magnitude) : Interval :=
  let narrow := x.mantissa = Nat.pow 2 52 && minExponent < x.exponent
  let low := if narrow then 4 * x.mantissa - 1 else 4 * x.mantissa - 2
  let (scale, den) :=
    if 0 ≤ x.exponent then (Nat.pow 2 x.exponent.toNat, 4)
    else (1, 4 * Nat.pow 2 (-x.exponent).toNat)
  ⟨low * scale, 4 * x.mantissa * scale, (4 * x.mantissa + 2) * scale, den, x.mantissa % 2 = 0⟩

/-- Whether `n * 10 ^ e` rounds to the magnitude of the interval. -/
def Interval.contains (i : Interval) (n : Nat) (e : Int) : Bool :=
  let (n, d) := if 0 ≤ e then (n * Nat.pow 10 e.toNat, 1) else (n, Nat.pow 10 (-e).toNat)
  if i.closed then i.low * d ≤ n * i.den && n * i.den ≤ i.high * d
  else i.low * d < n * i.den && n * i.den < i.high * d

/-- The magnitude of the interval in units of `10 ^ e`, as a fraction. -/
def Interval.inUnits (i : Interval) (e : Int) : Nat × Nat :=
  if 0 ≤ e then (i.mid, i.den * Nat.pow 10 e.toNat) else (i.mid * Nat.pow 10 (-e).toNat, i.den)

/-- The multiples of `10 ^ e` next to the magnitude, from below and from above. -/
def Interval.neighbours (i : Interval) (e : Int) : Nat × Nat :=
  let (n, d) := i.inUnits e
  (n / d, n / d + 1)

/-- Whether the lower of two neighbours on the grid of `10 ^ e` is the nearer one, or as near and
even. -/
def Interval.lowerIsNearer (i : Interval) (n : Nat) (e : Int) : Bool :=
  let (m, d) := i.inUnits e
  let twice := 2 * (m - n * d)
  twice < d || (twice = d && n % 2 = 0)

/-- The decimal of the interval on the grid of `10 ^ e`, if it holds one. -/
def Interval.onGrid? (i : Interval) (e : Int) : Option DecimalNumber :=
  let (lower, upper) := i.neighbours e
  let lowerIn := lower ≠ 0 && i.contains lower e
  let upperIn := i.contains upper e
  if lowerIn && (!upperIn || i.lowerIsNearer lower e) then some ⟨lower, e⟩
  else if upperIn then some ⟨upper, e⟩
  else none

/-- The number of decimal digits before the point, negative if zeros follow the point. -/
def decimalExponent (num den : Nat) : Int :=
  if den ≤ num then Int.ofNat (Nat.toDigits 10 (num / den)).length
  else 1 - Int.ofNat (Nat.toDigits 10 (den / num)).length

/-- Takes trailing zeros from the digits into the exponent, at most `steps` of them. -/
def DecimalNumber.trimZeros : (steps : Nat) → DecimalNumber → DecimalNumber
  | 0, x => x
  | steps + 1, x =>
    if x.digits ≠ 0 && x.digits % 10 = 0 then trimZeros steps ⟨x.digits / 10, x.exponent + 1⟩
    else x

/-- The shortest decimal that rounds to a magnitude other than zero. -/
def shortest (x : Magnitude) : DecimalNumber :=
  let i := x.interval
  let point := decimalExponent i.mid i.den
  let found := (List.range 19).findSome? fun k => i.onGrid? (point + 1 - Int.ofNat k)
  (found.map (DecimalNumber.trimZeros 20)).getD ⟨0, 0⟩

end Magnitude

end Cimi.Json
