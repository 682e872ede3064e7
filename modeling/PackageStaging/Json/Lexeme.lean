/-
# The words of a JSON document

Strings, numbers and keywords, each read from the front of a source and giving the rest of it.
A source is a list of characters in which `none` stands for a byte that belongs to no character:
such a byte may stand in a string that nobody wants, and nowhere else.
-/
import PackageStaging.Json.Fault
import PackageStaging.Text.Digits
import PackageStaging.Text.Utf8

namespace PackageStaging.Json

/-- A document that is being read. -/
abbrev Source := List (Option Char)

/-- A fault as it is met, located by how much of the source was left. -/
structure Snag where
  /-- What is wrong. -/
  cause : Cause
  /-- The number of units of the source that had not been read. -/
  left : Nat
  /-- Whether it is the next unit that is at fault. -/
  ahead : Bool
deriving DecidableEq, Repr

/-- Reads a value from the front of a source and gives the rest. -/
abbrev Reader (α : Type) := Source → Except Snag (α × Source)

/-- A fault of form, in what has been read. -/
def flawed {α : Type} (flaw : Flaw) (rest : Source) : Except Snag α :=
  .error ⟨.form flaw, rest.length, false⟩

/-- A fault of form, in what comes next. -/
def flawedAhead {α : Type} (flaw : Flaw) (rest : Source) : Except Snag α :=
  .error ⟨.form flaw, rest.length, true⟩

/-- A fault of content, in what has been read. -/
def mismatched {α : Type} (m : Mismatch) (rest : Source) : Except Snag α :=
  .error ⟨.content m, rest.length, false⟩

/-- Whether a unit may stand between the words of a document. -/
def isSpace (u : Option Char) : Bool :=
  u = some ' ' || u = some '\n' || u = some '\t' || u = some '\r'

/-- The source from its next word on. -/
def skipSpace (s : Source) : Source := s.dropWhile isSpace

/-! ### Strings -/

/-- The value of a digit in base sixteen. -/
def hexValue (u : Option Char) : Option Nat := u.bind Text.hexValue?

/-- The number that four digits in base sixteen spell. -/
def hexNumber (a b c d : Option Char) : Option Nat := do
  let a ← hexValue a
  let b ← hexValue b
  let c ← hexValue c
  let d ← hexValue d
  return ((a * 16 + b) * 16 + c) * 16 + d

/-- The character that a backslash and one letter stand for. -/
def shortEscape (u : Option Char) : Option Char :=
  if u = some '"' then some '"'
  else if u = some '\\' then some '\\'
  else if u = some '/' then some '/'
  else if u = some 'b' then some '\x08'
  else if u = some 'f' then some '\x0c'
  else if u = some 'n' then some '\n'
  else if u = some 'r' then some '\r'
  else if u = some 't' then some '\t'
  else none

/-- Whether a number is the first half of a pair that stands for one character. -/
def isLeading (n : Nat) : Bool := 0xD800 ≤ n && n ≤ 0xDBFF

/-- Whether a number is the second half of a pair that stands for one character. -/
def isTrailing (n : Nat) : Bool := 0xDC00 ≤ n && n ≤ 0xDFFF

/-- Reads on behind the opening quote of a string.  `read` holds the characters met so far, the
last one first, and `sound` says that all bytes so far belong to characters. -/
def stringTail (read : List Char) (sound : Bool) : Reader String
  | [] => flawed .unfinishedString []
  | none :: rest => stringTail read false rest
  | some c :: rest =>
    if c = '"' then
      if sound then .ok (String.ofList read.reverse, rest) else flawed .badText rest
    else if c = '\\' then
      match rest with
      | [] => flawed .unfinishedString []
      | e :: rest₁ =>
        if e = some 'u' then
          match rest₁ with
          | h₁ :: h₂ :: h₃ :: h₄ :: rest₂ =>
            match hexNumber h₁ h₂ h₃ h₄ with
            | none => flawed .badEscape rest₂
            | some n =>
              if isTrailing n then flawed .loneSurrogate rest₂
              else if !isLeading n then stringTail (Char.ofNat n :: read) sound rest₂
              else match rest₂ with
                | [] => flawed .unfinishedString []
                | x :: rest₃ =>
                  if x ≠ some '\\' then flawed .wantsSecondSurrogate rest₃
                  else match rest₃ with
                    | [] => flawed .unfinishedString []
                    | y :: rest₄ =>
                      if y ≠ some 'u' then flawed .wantsSecondSurrogate rest₄
                      else match rest₄ with
                        | k₁ :: k₂ :: k₃ :: k₄ :: rest₅ =>
                          match hexNumber k₁ k₂ k₃ k₄ with
                          | none => flawed .badEscape rest₅
                          | some m =>
                            if isTrailing m then
                              let whole := 0x10000 + (n - 0xD800) * 0x400 + (m - 0xDC00)
                              stringTail (Char.ofNat whole :: read) sound rest₅
                            else flawed .loneSurrogate rest₅
                        | _ => flawed .unfinishedString []
          | _ => flawed .unfinishedString []
        else match shortEscape e with
          | some d => stringTail (d :: read) sound rest₁
          | none => flawed .badEscape rest₁
    else if c.toNat < 0x20 then flawed .controlCharacter rest
    else stringTail (c :: read) sound rest

/-- Passes over the rest of a string that nobody wants, behind its opening quote. -/
def skipStringTail : Source → Except Snag Source
  | [] => flawed .unfinishedString []
  | none :: rest => skipStringTail rest
  | some c :: rest =>
    if c = '"' then .ok rest
    else if c = '\\' then
      match rest with
      | [] => flawed .unfinishedString []
      | e :: rest₁ =>
        if e = some 'u' then
          match rest₁ with
          | h₁ :: h₂ :: h₃ :: h₄ :: rest₂ =>
            match hexNumber h₁ h₂ h₃ h₄ with
            | none => flawed .badEscape rest₂
            | some _ => skipStringTail rest₂
          | _ => flawed .unfinishedString []
        else match shortEscape e with
          | some _ => skipStringTail rest₁
          | none => flawed .badEscape rest₁
    else if c.toNat < 0x20 then flawed .controlCharacter (some c :: rest)
    else skipStringTail rest

/-! ### Keywords -/

/-- Passes over the letters of a keyword. -/
def keyword : List Char → Source → Except Snag Source
  | [], s => .ok s
  | _ :: _, [] => flawed .unfinishedValue []
  | k :: ks, u :: s => if u = some k then keyword ks s else flawed .wantsKeyword s

/-! ### Numbers -/

/-- Whether a unit is a decimal digit. -/
def isDigit (u : Option Char) : Bool :=
  match u with
  | some c => c.isDigit
  | none => false

/-- The value of a decimal digit. -/
def digitValue (u : Option Char) : Nat :=
  match u with
  | some c => c.toNat - '0'.toNat
  | none => 0

/-- The greatest significand that is kept exactly. -/
def maxSignificand : Nat := 0xFFFFFFFFFFFFFFFF

/-- Appends digits to a significand as long as it stays exact; the number of digits that were
taken comes with it. -/
def accumulate (significand : Nat) : Source → Nat × Nat
  | [] => (significand, 0)
  | u :: ds =>
    let next := significand * 10 + digitValue u
    if maxSignificand < next then (significand, 0)
    else
      let (n, taken) := accumulate next ds
      (n, taken + 1)

/-- The powers of ten by which a significand is scaled are rounded themselves, the greatest of
them being 10 ^ 308; a smaller number is divided by that one first, `fuel` times at most.
There is no result beyond the finite numbers. -/
def scale : Nat → Binary64 → Int → Option Binary64
  | 0, _, _ => some .zero
  | fuel + 1, x, exponent =>
    if exponent.natAbs ≤ 308 then
      let power := Binary64.ofNat (Nat.pow 10 exponent.natAbs)
      if 0 ≤ exponent then
        let y := x * power
        if y = .infinity then none else some y
      else some (x / power)
    else if x = .zero then some x
    else if 0 ≤ exponent then none
    else scale fuel (x / Binary64.ofNat (Nat.pow 10 308)) (exponent + 308)

/-- The number with this significand and this exponent of ten. -/
def floatOf (negative : Bool) (significand : Nat) (exponent : Int) (rest : Source) :
    Except Snag (Found × Source) :=
  match scale 4 (.ofNat significand) exponent with
  | some x => .ok (.float negative x, rest)
  | none => flawed .hugeNumber rest

/-- The greatest exponent that is read exactly. -/
def maxExponent : Nat := 0x7FFFFFFF

/-- The digits of an exponent: its value, or the source behind the digit that makes it too
great. -/
def exponentDigits (value : Nat) : Source → Except Source (Nat × Source)
  | [] => .ok (value, [])
  | u :: rest =>
    if isDigit u then
      let next := value * 10 + digitValue u
      if maxExponent < next then .error rest else exponentDigits next rest
    else .ok (value, u :: rest)

/-- Reads on behind the letter of an exponent. -/
def exponentTail (negative : Bool) (significand : Nat) (start : Int) (s : Source) :
    Except Snag (Found × Source) :=
  let (up, s) := match s with
    | some '+' :: rest => (true, rest)
    | some '-' :: rest => (false, rest)
    | _ => (true, s)
  match s with
  | [] => flawed .unfinishedValue []
  | u :: rest =>
    if isDigit u then
      match exponentDigits (digitValue u) rest with
      | .ok (value, rest) =>
        let exponent := if up then start + value else start - value
        floatOf negative significand exponent rest
      | .error rest =>
        if significand ≠ 0 ∧ up then flawed .hugeNumber rest
        else .ok (.float negative .zero, rest.dropWhile isDigit)
    else flawed .badNumber rest

/-- Whether a unit begins an exponent. -/
def isExponentMark (u : Option Char) : Bool := u = some 'e' || u = some 'E'

/-- Reads on behind the point of a number. -/
def fractionTail (negative : Bool) (significand : Nat) (exponent : Int) (s : Source) :
    Except Snag (Found × Source) :=
  let digits := s.takeWhile isDigit
  let rest := s.dropWhile isDigit
  if digits = [] then
    if rest = [] then flawedAhead .unfinishedValue rest else flawedAhead .badNumber rest
  else
    let (n, taken) := accumulate significand digits
    let exponent := exponent - taken
    match rest with
    | [] => floatOf negative n exponent []
    | u :: rest₁ =>
      if isExponentMark u then exponentTail negative n exponent rest₁
      else floatOf negative n exponent rest

/-- A whole number within 64 bits, or the floating point number that stands for it. -/
def wholeNumber (negative : Bool) (n : Nat) : Found :=
  if !negative then .whole n
  else if n ≠ 0 ∧ n ≤ 0x8000000000000000 then .whole (-n)
  else .float true (.ofNat n)

/-- Reads on behind the whole digits of a number, of which `dropped` found no room in the
significand. -/
def numberTail (negative : Bool) (significand dropped : Nat) (s : Source) :
    Except Snag (Found × Source) :=
  let plain : Except Snag (Found × Source) :=
    if dropped = 0 then .ok (wholeNumber negative significand, s)
    else floatOf negative significand dropped s
  match s with
  | [] => plain
  | u :: rest =>
    if u = some '.' then fractionTail negative significand dropped rest
    else if isExponentMark u then exponentTail negative significand dropped rest
    else plain

/-- Reads the digits of a number, behind its sign if it has one. -/
def unsignedNumber (negative : Bool) (s : Source) : Except Snag (Found × Source) :=
  match s with
  | [] => flawed .unfinishedValue []
  | u :: rest =>
    if u = some '0' then
      match rest with
      | [] => numberTail negative 0 0 []
      | v :: _ => if isDigit v then flawedAhead .badNumber rest else numberTail negative 0 0 rest
    else if isDigit u then
      let digits := s.takeWhile isDigit
      let (n, taken) := accumulate 0 digits
      numberTail negative n (digits.length - taken) (s.dropWhile isDigit)
    else flawed .badNumber rest

/-- Passes over the exponent of a number that nobody wants, behind its letter. -/
def skipExponent (s : Source) : Except Snag Source :=
  let s := match s with
    | some '+' :: rest => rest
    | some '-' :: rest => rest
    | _ => s
  match s with
  | [] => flawed .badNumber []
  | u :: rest => if isDigit u then .ok (rest.dropWhile isDigit) else flawed .badNumber rest

/-- Passes over the fraction and the exponent of a number that nobody wants. -/
def skipNumberTail (s : Source) : Except Snag Source :=
  match s with
  | [] => .ok []
  | u :: rest =>
    if u = some '.' then
      if rest.takeWhile isDigit = [] then flawedAhead .badNumber rest
      else match rest.dropWhile isDigit with
        | [] => .ok []
        | v :: rest₁ => if isExponentMark v then skipExponent rest₁ else .ok (v :: rest₁)
    else if isExponentMark u then skipExponent rest
    else .ok s

/-- Passes over the digits of a number that nobody wants, behind its sign if it has one. -/
def skipNumber (s : Source) : Except Snag Source :=
  match s with
  | [] => flawed .badNumber []
  | u :: rest =>
    if u = some '0' then
      match rest with
      | [] => .ok []
      | v :: _ => if isDigit v then flawedAhead .badNumber rest else skipNumberTail rest
    else if isDigit u then skipNumberTail (rest.dropWhile isDigit)
    else flawed .badNumber rest

end PackageStaging.Json
