/-
# Punycode

A label of a domain that holds characters beyond ASCII is written in ASCII: first the characters
of ASCII, then, behind a hyphen, where the others go.  The others are taken in ascending order;
each is told by the number of places that lie between it and the one before, counted over all
positions and code points, and that number is written in base 36 with thresholds that adapt to
the numbers met so far.
-/
namespace PackageStaging.Url.Punycode

/-- The letter for a digit: the letters stand for 0 to 25, the decimal digits for 26 to 35. -/
def digitChar (n : Nat) : Char :=
  if n < 26 then Char.ofNat ('a'.toNat + n) else Char.ofNat ('0'.toNat + (n - 26))

/-- The digit that a letter stands for. -/
def digitValue? (c : Char) : Option Nat :=
  if 'a' ≤ c ∧ c ≤ 'z' then some (c.toNat - 'a'.toNat)
  else if 'A' ≤ c ∧ c ≤ 'Z' then some (c.toNat - 'A'.toNat)
  else if '0' ≤ c ∧ c ≤ '9' then some (c.toNat - '0'.toNat + 26)
  else none

/-- The threshold of the digit at place `k`, which goes up in steps of 36. -/
def threshold (k bias : Nat) : Nat :=
  if k ≤ bias then 1 else if bias + 26 ≤ k then 26 else k - bias

theorem threshold_pos (k bias : Nat) : 0 < threshold k bias := by
  unfold threshold
  split
  · decide
  · split <;> omega

theorem threshold_le (k bias : Nat) : threshold k bias ≤ 26 := by
  unfold threshold
  split
  · decide
  · split <;> omega

/-- How often a number is divided by 35 until it is at most 455, in steps of 36, and what is left
of it. -/
def damp (delta k : Nat) : Nat × Nat :=
  if 455 < delta then damp (delta / 35) (k + 36) else (delta, k)
termination_by delta
decreasing_by exact Nat.div_lt_self (by omega) (by decide)

/-- The bias after a number has been written, when `count` characters are in place. -/
def adapted (delta count : Nat) (first : Bool) : Nat :=
  let delta := if first then delta / 700 else delta / 2
  let (delta, k) := damp (delta + delta / count) 0
  k + 36 * delta / (delta + 38)

/-- The digits of a number from place `k` on. -/
def digits (q k bias : Nat) : List Char :=
  let t := threshold k bias
  if q < t then [digitChar q]
  else digitChar (t + (q - t) % (36 - t)) :: digits ((q - t) / (36 - t)) (k + 36) bias
termination_by q
decreasing_by
  have h := threshold_pos k bias
  have h' := threshold_le k bias
  refine Nat.lt_of_le_of_lt (Nat.div_le_self _ _) ?_
  omega

/-- How far the encoding of a label has come. -/
structure Progress where
  /-- The number of places passed since the last number was written. -/
  delta : Nat
  bias : Nat
  /-- The number of characters that are in place. -/
  placed : Nat
  written : List Char

/-- Passes a character of a label while the places of one code point are written. -/
def pass (basic code : Nat) (p : Progress) (c : Nat) : Progress :=
  if c < code then { p with delta := p.delta + 1 }
  else if c = code then
    ⟨0, adapted p.delta (p.placed + 1) (p.placed == basic), p.placed + 1,
      p.written ++ digits p.delta 36 p.bias⟩
  else p

/-- Goes over a label once and writes the places of one code point. -/
def place (label : List Nat) (basic code : Nat) (start : Progress) : Progress :=
  label.foldl (pass basic code) start

/-- Writes the places of code points in ascending order; `from'` is the least one that is not
done. -/
def placeAll (label : List Nat) (basic : Nat) : List Nat → Nat → Progress → Progress
  | [], _, p => p
  | code :: codes, from', p =>
    let p := place label basic code
      { p with delta := p.delta + (code - from') * (p.placed + 1) }
    placeAll label basic codes (code + 1) { p with delta := p.delta + 1 }

/-- The code points beyond ASCII, each once and in ascending order. -/
def others (codes : List Nat) : List Nat :=
  ((codes.filter fun n => 0x80 ≤ n).eraseDups).mergeSort

/-- The label in ASCII. -/
def encode (label : List Char) : List Char :=
  let basic := label.filter fun c => c.toNat < 0x80
  let codes := label.map Char.toNat
  let start := if basic = [] then [] else basic ++ ['-']
  (placeAll codes basic.length (others codes) 0x80 ⟨0, 72, basic.length, start⟩).written

/-- Puts a code point into a label. -/
def insertAt (label : List Nat) (i code : Nat) : List Nat := label.take i ++ code :: label.drop i

/-- Reads the places of characters; `i` counts the places passed, `old` those that were passed
before the number that is being read, `weight` is that of the next digit. -/
def decodePlaces (label : List Nat) (code bias i old weight k : Nat) :
    List Char → Option (List Nat)
  | [] => if weight = 1 then some label else none
  | c :: rest => do
    let digit ← digitValue? c
    let i := i + digit * weight
    let t := threshold k bias
    if digit < t then
      let count := label.length + 1
      let code := code + i / count
      if 0x110000 ≤ code ∨ (0xD800 ≤ code ∧ code < 0xE000) then none
      else
        let at' := i % count
        decodePlaces (insertAt label at' code) code (adapted (i - old) count (old == 0))
          (at' + 1) (at' + 1) 1 36 rest
    else decodePlaces label code bias i old (weight * (36 - t)) (k + 36) rest

/-- The label that is written so in ASCII. -/
def decode? (s : List Char) : Option (List Char) :=
  let tail := (s.reverse.takeWhile (· ≠ '-')).reverse
  let basic := (s.take (s.length - tail.length)).dropLast
  (decodePlaces (basic.map Char.toNat) 0x80 72 0 0 1 36 tail).map (·.map Char.ofNat)

example : encode "münchen".toList = "mnchen-3ya".toList := by decide +kernel
example : decode? "mnchen-3ya".toList = some "münchen".toList := by decide +kernel

end PackageStaging.Url.Punycode
