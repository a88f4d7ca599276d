/-!
# Binary floating point numbers

A finite number of IEEE 754 binary64 is a sign and a magnitude `mantissa * 2 ^ exponent`.  All
arithmetic here is exact arithmetic on natural numbers followed by one rounding to the nearest
representable magnitude, a half going to the even mantissa (`Magnitude.ofRatio`).
-/

namespace Cimi.Json

/-- A finite magnitude `mantissa * 2 ^ exponent`.  A magnitude that `ofRatio` makes has 53 binary
digits, or has the least exponent. -/
structure Magnitude where
  mantissa : Nat
  exponent : Int
deriving DecidableEq, Repr, Inhabited

namespace Magnitude

/-- The least exponent of a magnitude. -/
def minExponent : Int := -1074

/-- The greatest exponent of a magnitude. -/
def maxExponent : Int := 971

/-- The number of mantissas below the first that needs 54 binary digits. -/
def mantissaBound : Nat := Nat.pow 2 53

/-- The magnitude zero. -/
def zero : Magnitude := ⟨0, minExponent⟩

/-- The natural number nearest to `num / den`, a half going to the even one. -/
def roundHalfEven (num den : Nat) : Nat :=
  let q := num / den
  let r := num % den
  if 2 * r < den then q
  else if den < 2 * r then q + 1
  else if q % 2 = 0 then q else q + 1

/-- The fraction `num / den` divided by `2 ^ e`. -/
def scale (num den : Nat) (e : Int) : Nat × Nat :=
  if 0 ≤ e then (num, den * Nat.pow 2 e.toNat) else (num * Nat.pow 2 (-e).toNat, den)

/-- The exponent at which `num / den` has a mantissa of 53 binary digits, or the least one. -/
def exponentOf (num den : Nat) : Int :=
  let e := max (Int.ofNat num.log2 - Int.ofNat den.log2 - 53) minExponent
  let (n, d) := scale num den e
  if n < d * mantissaBound then e else e + 1

/-- The magnitude nearest to `num / den`; none if it is too great. -/
def ofRatio (num den : Nat) : Option Magnitude :=
  if num = 0 then some zero
  else
    let e := exponentOf num den
    let (n, d) := scale num den e
    let m := roundHalfEven n d
    let (m, e) := if m = mantissaBound then (m / 2, e + 1) else (m, e)
    if maxExponent < e then none else some ⟨m, e⟩

/-- The magnitude as a fraction. -/
def toRatio (x : Magnitude) : Nat × Nat :=
  if 0 ≤ x.exponent then (x.mantissa * Nat.pow 2 x.exponent.toNat, 1)
  else (x.mantissa, Nat.pow 2 (-x.exponent).toNat)

/-- The product, rounded; none if it is too great. -/
def mul (x y : Magnitude) : Option Magnitude :=
  let (a, b) := x.toRatio
  let (c, d) := y.toRatio
  ofRatio (a * c) (b * d)

/-- The quotient by a magnitude other than zero, rounded; none if it is too great. -/
def div (x y : Magnitude) : Option Magnitude :=
  let (a, b) := x.toRatio
  let (c, d) := y.toRatio
  ofRatio (a * d) (b * c)

/-- The magnitude nearest to a power of ten; for powers up to `1e308`. -/
def powerOfTen (k : Nat) : Magnitude := (ofRatio (Nat.pow 10 k) 1).getD zero

end Magnitude

/-- A finite number of binary64; zero has a sign as well. -/
structure Double where
  negative : Bool
  magnitude : Magnitude
deriving DecidableEq, Repr, Inhabited

end Cimi.Json
