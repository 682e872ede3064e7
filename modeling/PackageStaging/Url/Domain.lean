/-
# Domains

The name of a host is brought into one form before it is used: capital letters become small ones,
characters that do not show are dropped, and a label that holds characters beyond ASCII is
written in ASCII behind the mark `xn--`.  What stands for which character differs from one version
of Unicode to the next, so addresses are read by whatever `Rules` there are.  Those given here know
the capital letters of Latin, Greek, Cyrillic and Armenian script, and a letter with an accent has
to be given as one character.
-/
import PackageStaging.Text.Fields
import PackageStaging.Text.Printable
import PackageStaging.Url.Punycode

namespace PackageStaging.Url.Domain

/-- Ranges of capital letters, and how far off their small letters are. -/
def capitals : List (Nat × Nat × Nat) := [
  (0x41, 0x5A, 32), (0xC0, 0xD6, 32), (0xD8, 0xDE, 32), (0x388, 0x38A, 37), (0x38C, 0x38C, 64),
  (0x38E, 0x38F, 63), (0x386, 0x386, 38), (0x391, 0x3AB, 32), (0x400, 0x40F, 80),
  (0x410, 0x42F, 32), (0x531, 0x556, 48)]

/-- Ranges in which each capital letter is followed by its small letter. -/
def pairs : List (Nat × Nat) := [
  (0x100, 0x12F), (0x132, 0x137), (0x139, 0x148), (0x14A, 0x177), (0x179, 0x17E),
  (0x3D8, 0x3EF), (0x460, 0x481), (0x48A, 0x4BF), (0x4C1, 0x4CE), (0x4D0, 0x52F),
  (0x1E00, 0x1E95), (0x1EA0, 0x1EFF)]

/-- The small letter of a letter. -/
def small (n : Nat) : Nat :=
  match capitals.find? fun r => r.1 ≤ n && n ≤ r.2.1 with
  | some r => n + r.2.2
  | none =>
    match pairs.find? fun r => r.1 ≤ n && n ≤ r.2 with
    | some r => if (n - r.1) % 2 = 0 then n + 1 else n
    | none => if n = 0x178 then 0xFF else n

/-- Characters that are dropped. -/
def isDropped (n : Nat) : Bool :=
  n == 0xAD || n == 0x34F || n == 0x200B || n == 0x2060 || n == 0xFEFF
    || (0x180B ≤ n && n ≤ 0x180D) || (0xFE00 ≤ n && n ≤ 0xFE0F)

/-- Characters that count as the dot between labels. -/
def isDot (n : Nat) : Bool := n == 0x3002 || n == 0xFF0E || n == 0xFF61

/-- Characters that only differ in their shape from others, with what they are written as. -/
def spellings : List (Char × List Char) := [
  ('\u00A0', [' ']), ('¨', [' ', '\u0308']), ('ª', ['a']), ('¯', [' ', '\u0304']), ('²', ['2']),
  ('³', ['3']), ('´', [' ', '\u0301']), ('µ', ['μ']), ('¸', [' ', '\u0327']), ('¹', ['1']),
  ('º', ['o']), ('¼', ['1', '⁄', '4']), ('½', ['1', '⁄', '2']), ('¾', ['3', '⁄', '4']),
  ('İ', ['i', '\u0307']), ('Ĳ', ['i', 'j']), ('ĳ', ['i', 'j']), ('Ŀ', ['l', '·']),
  ('ŀ', ['l', '·']), ('ŉ', ['ʼ', 'n']), ('ſ', ['s']), ('ẚ', ['a', 'ʾ']), ('ẛ', ['ṡ']), ('ẞ', ['ß']),
  ('\u2126', ['ω']), ('\u212A', ['k']), ('\u212B', ['å']), ('ﬀ', ['f', 'f']), ('ﬁ', ['f', 'i']),
  ('ﬂ', ['f', 'l']), ('ﬃ', ['f', 'f', 'i']), ('ﬄ', ['f', 'f', 'l']), ('ﬅ', ['s', 't']),
  ('ﬆ', ['s', 't'])]

/-- What stands for a character in a domain; nothing does for one that must not occur. -/
def mapped (c : Char) : Option (List Char) :=
  match spellings.lookup c with
  | some l => some l
  | none =>
    let n := c.toNat
    if isDropped n then some []
    else if isDot n then some ['.']
    else if 0xFF01 ≤ n ∧ n ≤ 0xFF5E then some [Char.ofNat (small (n - 0xFEE0))]
    else if 0x80 ≤ n ∧ Text.isUnprintable c then none
    else if n = 0xFFFD then none
    else some [Char.ofNat (small n)]

/-- Characters of ASCII that no domain holds. -/
def isForbidden (c : Char) : Bool :=
  c.toNat ≤ 0x20 || c.toNat == 0x7F
    || c ∈ ['#', '%', '/', ':', '<', '>', '?', '@', '[', '\\', ']', '^', '|']

/-- The mark in front of a label that stands for one beyond ASCII. -/
def mark : List Char := ['x', 'n', '-', '-']

/-- Whether a label beyond ASCII may be used as it is. -/
def isSettled (label : List Char) : Bool :=
  (label.mapM mapped).map List.flatten = some label
    && (match label with
      | c :: _ => !Text.isJoining c
      | [] => true)

/-- A label in ASCII, if it has such a form. -/
def labelInAscii (label : List Char) : Option (List Char) :=
  if label.all fun c => c.toNat < 0x80 then
    if mark.isPrefixOf label then
      match Punycode.decode? (label.drop 4) with
      | some u =>
        if u.any (fun c => 0x80 ≤ c.toNat) && isSettled u
            && Punycode.encode u = label.drop 4 then some label else none
      | none => none
    else some label
  else if isSettled label then some (mark ++ Punycode.encode label)
  else none

/-- A domain in ASCII, if it has such a form. -/
def inAscii (domain : List Char) : Option (List Char) := do
  let characters ← domain.mapM mapped
  let labels ← (Text.fields '.' characters.flatten).mapM labelInAscii
  let ascii := Text.joined '.' labels
  if ascii.any isForbidden then none else some ascii

/-- Rules for domains: the form in ASCII that each of them is brought to, if it has one. -/
class Rules where
  ascii? : List Char → Option (List Char)

instance : Rules := ⟨inAscii⟩

end PackageStaging.Url.Domain
