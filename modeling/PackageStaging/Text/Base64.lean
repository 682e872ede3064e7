/-
# Bytes in base 64

Bytes as characters of ASCII, each of which stands for six bits.  Three bytes become four
characters; where bytes are missing at the end, `=` stands in their place.
-/
import PackageStaging.Text.Utf8

namespace PackageStaging.Base64

/-- The characters for the numbers below 64. -/
def alphabet : List Char :=
  "ABCDEFGHIJKLMNOPQRSTUVWXYZabcdefghijklmnopqrstuvwxyz0123456789+/".toList

/-- The character for a number below 64. -/
def digit (n : Nat) : Char := alphabet.getD n '='

/-- The characters for bytes. -/
def characters : Bytes → List Char
  | [] => []
  | [a] => [digit (a.toNat / 4), digit (a.toNat % 4 * 16), '=', '=']
  | [a, b] =>
    [digit (a.toNat / 4), digit (a.toNat % 4 * 16 + b.toNat / 16), digit (b.toNat % 16 * 4), '=']
  | a :: b :: c :: rest =>
    [digit (a.toNat / 4), digit (a.toNat % 4 * 16 + b.toNat / 16),
      digit (b.toNat % 16 * 4 + c.toNat / 64), digit (c.toNat % 64)] ++ characters rest

/-- Bytes in base 64. -/
def encode (bytes : Bytes) : String := String.ofList (characters bytes)

example : encode (Utf8.encode "user:p@ss") = "dXNlcjpwQHNz" := by decide +kernel

end PackageStaging.Base64
