/-
# Binary64 magnitudes

The finite numbers of the IEEE 754 format binary64 without their sign.  A magnitude is named by
its bit pattern, so that the order of the patterns is the order of the numbers, and
`nearest num den` is the pattern of the number nearest to `num / den`, a tie going to the even
pattern.  All arithmetic is exact until its result is rounded once.
-/
namespace PackageStaging

/-- The pattern of the 63 bits of a number that is not negative. -/
structure Binary64 where
  /-- The eleven bits of the exponent above the 52 bits of the fraction. -/
  bits : Nat
deriving DecidableEq, Repr, Inhabited

namespace Binary64

instance : LT Binary64 := ⟨fun x y => x.bits < y.bits⟩
instance : LE Binary64 := ⟨fun x y => x.bits ≤ y.bits⟩
instance (x y : Binary64) : Decidable (x < y) := inferInstanceAs (Decidable (x.bits < y.bits))
instance (x y : Binary64) : Decidable (x ≤ y) := inferInstanceAs (Decidable (x.bits ≤ y.bits))

/-- Zero. -/
def zero : Binary64 := ⟨0⟩

/-- One. -/
def one : Binary64 := ⟨0x3FF0000000000000⟩

/-- The pattern above all finite numbers. -/
def infinity : Binary64 := ⟨0x7FF0000000000000⟩

/-- The number of fractions that an exponent goes with: two to the power of 52. -/
def fractionRange : Nat := 0x10000000000000

/-- The quotient rounded to the nearest whole number, a tie to the even one. -/
def roundDiv (num den : Nat) : Nat :=
  let q := num / den
  let r := num % den
  if 2 * r < den then q
  else if den < 2 * r then q + 1
  else if q % 2 = 0 then q else q + 1

/-- The exponent `k` with `2 ^ k ≤ num / den < 2 ^ (k + 1)`, for positive `num` and `den`. -/
def floorLog2 (num den : Nat) : Int :=
  let k : Int := (num.log2 : Int) - (den.log2 : Int)
  let reaches :=
    if 0 ≤ k then decide (den * Nat.pow 2 k.toNat ≤ num)
    else decide (den ≤ num * Nat.pow 2 (-k).toNat)
  if reaches then k else k - 1

/-- The number nearest to `num / den`; from half a unit above the greatest number on it is
`infinity`.  A fraction with denominator zero is read as zero. -/
def nearest (num den : Nat) : Binary64 :=
  if num = 0 ∨ den = 0 then zero
  else
    let unit : Int := max (floorLog2 num den - 52) (-1074)
    let count :=
      if 0 ≤ unit then roundDiv num (den * Nat.pow 2 unit.toNat)
      else roundDiv (num * Nat.pow 2 (-unit).toNat) den
    let pattern := (unit + 1074).toNat * fractionRange + count
    if infinity.bits ≤ pattern then infinity else ⟨pattern⟩

/-- The whole number `count` and the exponent `unit` with value `count * 2 ^ unit`. -/
def decompose (x : Binary64) : Nat × Int :=
  let exponent : Nat := x.bits / fractionRange
  let fraction : Nat := x.bits % fractionRange
  if exponent = 0 then (fraction, -1074) else (fraction + fractionRange, (exponent : Int) - 1075)

/-- The value as numerator and denominator. -/
def toRatio (x : Binary64) : Nat × Nat :=
  let (count, unit) := x.decompose
  if 0 ≤ unit then (count * Nat.pow 2 unit.toNat, 1) else (count, Nat.pow 2 (-unit).toNat)

/-- The number nearest to a whole number. -/
def ofNat (n : Nat) : Binary64 := nearest n 1

/-- The product, rounded. -/
def mul (x y : Binary64) : Binary64 :=
  let (a, b) := x.toRatio
  let (c, d) := y.toRatio
  nearest (a * c) (b * d)

/-- The quotient, rounded; zero if the divisor is zero. -/
def div (x y : Binary64) : Binary64 :=
  let (a, b) := x.toRatio
  let (c, d) := y.toRatio
  nearest (a * d) (b * c)

instance : Mul Binary64 := ⟨mul⟩
instance : Div Binary64 := ⟨div⟩

/-- The number nearest to `digits * 10 ^ exponent`. -/
def ofDecimal (digits : Nat) (exponent : Int) : Binary64 :=
  if 0 ≤ exponent then nearest (digits * Nat.pow 10 exponent.toNat) 1
  else nearest digits (Nat.pow 10 (-exponent).toNat)

example : nearest 1 2 = ⟨0x3FE0000000000000⟩ := by decide
example : nearest 1 3 = ⟨0x3FD5555555555555⟩ := by decide
example : ofNat (0x20000000000000 + 1) = ofNat 0x20000000000000 := by decide
example : ofNat (0x20000000000000 + 3) = ofNat (0x20000000000000 + 4) := by decide

end Binary64

end PackageStaging
