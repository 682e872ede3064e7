/-
# Digits

Numbers spelled in some base.
-/
namespace PackageStaging.Text

/-- The value of a digit in base sixteen. -/
def hexValue? (c : Char) : Option Nat :=
  if '0' ≤ c ∧ c ≤ '9' then some (c.toNat - '0'.toNat)
  else if 'a' ≤ c ∧ c ≤ 'f' then some (c.toNat - 'a'.toNat + 10)
  else if 'A' ≤ c ∧ c ≤ 'F' then some (c.toNat - 'A'.toNat + 10)
  else none

/-- The number that digits in a base of at most sixteen spell; no digits spell zero. -/
def numberIn (base : Nat) (ds : List Char) : Option Nat :=
  ds.foldlM (fun n c => do
    let d ← hexValue? c
    if d < base then some (n * base + d) else none) 0

/-- The character of a code point, if there is one. -/
def charOf? (n : Nat) : Option Char :=
  if n < 0xD800 ∨ (0xDFFF < n ∧ n < 0x110000) then some (Char.ofNat n) else none

end PackageStaging.Text
