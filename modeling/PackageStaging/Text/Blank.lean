/-
# White space

The characters that Unicode counts as white space; leading and trailing ones are dropped from
server addresses, access tokens and timestamps.
-/
namespace PackageStaging.Text

/-- Whether the character has the Unicode property `White_Space`. -/
def isBlank (c : Char) : Bool :=
  let n := c.toNat
  (0x09 ≤ n && n ≤ 0x0D) || n == 0x20 || n == 0x85 || n == 0xA0 || n == 0x1680
    || (0x2000 ≤ n && n ≤ 0x200A) || n == 0x2028 || n == 0x2029 || n == 0x202F || n == 0x205F
    || n == 0x3000

/-- The text without the white space that it begins with. -/
def dropBlank (s : List Char) : List Char := s.dropWhile isBlank

/-- The text without the white space that it begins and ends with. -/
def trim (s : String) : String :=
  String.ofList (dropBlank (dropBlank s.toList).reverse).reverse

end PackageStaging.Text
