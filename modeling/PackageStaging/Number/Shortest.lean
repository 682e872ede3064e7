/-
# Shortest decimal digits

`shortest x` is the decimal with the fewest digits that is read back as `x`, and of those the
one nearest to `x`.  For each number of digits only the two neighbours of `x` on that decimal
grid have to be tried, because the numbers that are read back as `x` form an interval around
it.  The layouts of the digits stand below: `positional` writes every digit at its place, and
`scientific` sets apart an exponent when the number is very large or very small.
-/
import PackageStaging.Number.Binary64

namespace PackageStaging

/-- A decimal number `digits * 10 ^ exponent`. -/
structure Decimal where
  /-- The digits as a whole number. -/
  digits : Nat
  /-- The power of ten by which they are scaled. -/
  exponent : Int
deriving DecidableEq, Repr

namespace Decimal

/-- The number in binary64 that the decimal is read as. -/
def round (d : Decimal) : Binary64 := .ofDecimal d.digits d.exponent

/-- The digits of a whole number in base ten, without leading zeros; zero has none. -/
def digitsOf (n : Nat) : List Char := if n = 0 then [] else Nat.toDigits 10 n

/-- The same number without zeros at the end of its digits, at most `fuel` of them. -/
def trimZeros : Nat → Decimal → Decimal
  | 0, d => d
  | fuel + 1, d =>
    if d.digits ≠ 0 ∧ d.digits % 10 = 0 then trimZeros fuel ⟨d.digits / 10, d.exponent + 1⟩ else d

/-- The decimal nearest to `x` among those that have `places` digits and are read back as `x`,
if there is one.  `ten` is the exponent of the first digit of `x`. -/
def shortestWith (x : Binary64) (ten : Int) (places : Nat) : Option Decimal :=
  let scale : Int := ten - (places : Int) + 1
  let (num, den) := x.toRatio
  let (num, den) := if 0 ≤ scale then (num, den * Nat.pow 10 scale.toNat)
    else (num * Nat.pow 10 (-scale).toNat, den)
  let low : Decimal := ⟨num / den, scale⟩
  let high : Decimal := ⟨num / den + 1, scale⟩
  let far := 2 * (num % den)
  let preferred := if far < den ∨ (far = den ∧ low.digits % 2 = 0) then [low, high] else [high, low]
  preferred.find? fun d => d.round = x

/-- The exponent `k` with `10 ^ k ≤ num / den < 10 ^ (k + 1)`, found among the two that the
binary exponent leaves. -/
def floorLog10 (num den : Nat) : Int :=
  let guess : Int := (Binary64.floorLog2 num den * 30103).fdiv 100000
  let reaches (k : Int) : Bool :=
    if 0 ≤ k then decide (den * Nat.pow 10 k.toNat ≤ num)
    else decide (den ≤ num * Nat.pow 10 (-k).toNat)
  if reaches (guess + 1) then guess + 1 else if reaches guess then guess else guess - 1

/-- The shortest decimal that is read back as the finite number `x`. -/
def shortest (x : Binary64) : Decimal :=
  if x.bits = 0 then ⟨0, 0⟩
  else
    let (num, den) := x.toRatio
    let ten := floorLog10 num den
    match (List.range 17).findSome? fun n => shortestWith x ten (n + 1) with
    | some d => trimZeros 20 d
    | none => ⟨0, 0⟩

/-- Every digit at its place, with a point only if there is a fraction. -/
def positional (d : Decimal) : String :=
  let ds := digitsOf d.digits
  if d.digits = 0 then "0"
  else if 0 ≤ d.exponent then String.ofList (ds ++ List.replicate d.exponent.toNat '0')
  else
    let cut := (-d.exponent).toNat
    if ds.length ≤ cut then
      String.ofList ('0' :: '.' :: List.replicate (cut - ds.length) '0' ++ ds)
    else
      String.ofList (ds.take (ds.length - cut) ++ '.' :: ds.drop (ds.length - cut))

/-- As `positional`, with `.0` behind a whole number. -/
def positionalWithPoint (d : Decimal) : String :=
  if 0 ≤ d.exponent ∨ d.digits = 0 then d.positional ++ ".0" else d.positional

/-- An exponent of ten: a sign and at least two digits. -/
def exponentText (k : Int) : String :=
  let n := k.natAbs
  (if 0 ≤ k then "e+" else "e-") ++ (if n < 10 then "0" else "") ++ toString n

/-- As `positionalWithPoint` for numbers from 0.00001 up to 10 ^ 16; for others one digit, the
rest as a fraction and an exponent. -/
def scientific (d : Decimal) : String :=
  let ds := digitsOf d.digits
  let ten : Int := d.exponent + (ds.length : Int) - 1
  if d.digits = 0 ∨ (-5 ≤ ten ∧ ten ≤ 15) then d.positionalWithPoint
  else match ds with
    | [c] => String.ofList [c] ++ exponentText ten
    | c :: rest => String.ofList (c :: '.' :: rest) ++ exponentText ten
    | [] => d.positionalWithPoint

end Decimal

end PackageStaging
