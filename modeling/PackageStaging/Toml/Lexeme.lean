/-
# The words of a configuration document

Strings, numbers, dates and names, each read from the front of a text and giving the rest of it.
A word that is not well formed makes the whole document unreadable, so there is nothing to be
said about it.
-/
import PackageStaging.Text.Digits
import PackageStaging.Timestamp
import PackageStaging.Toml.Value

namespace PackageStaging.Toml

/-- Reads something from the front of a text and gives the rest. -/
abbrev Reader (α : Type) := List Char → Option (α × List Char)

/-! ### Space -/

/-- Whether the character is space within a line. -/
def isBlank (c : Char) : Bool := c = ' ' || c = '\t'

/-- The text from the next word of the line on. -/
def skipBlank (s : List Char) : List Char := s.dropWhile isBlank

/-- The text behind the end of a line. -/
def newLine? : List Char → Option (List Char)
  | '\n' :: rest => some rest
  | '\r' :: '\n' :: rest => some rest
  | _ => none

/-- Whether the character may stand in a comment or, its own marks apart, in a string. -/
def isPlain (c : Char) : Bool := c = '\t' || (0x20 ≤ c.toNat && c.toNat ≠ 0x7F)

/-- The text behind a comment, if there is one. -/
def skipComment : List Char → List Char
  | '#' :: rest => rest.dropWhile isPlain
  | s => s

/-- The text behind the line, of which nothing but a comment may be left. -/
def lineEnd? (s : List Char) : Option (List Char) :=
  match skipComment (skipBlank s) with
  | [] => some []
  | rest => newLine? rest

/-- The text from the next word on, over ends of lines and comments. -/
def skipLines : Nat → List Char → List Char
  | 0, s => s
  | fuel + 1, s =>
    let rest := skipComment (skipBlank s)
    match newLine? rest with
    | some rest => skipLines fuel rest
    | none => rest

/-- The text from the next word on, over ends of lines and comments. -/
def skipSpace (s : List Char) : List Char := skipLines (s.length + 1) s

/-! ### Strings -/

/-- The character that a backslash and one letter stand for. -/
def shortEscape : Char → Option Char
  | 'b' => some '\x08'
  | 't' => some '\t'
  | 'n' => some '\n'
  | 'f' => some '\x0c'
  | 'r' => some '\r'
  | '"' => some '"'
  | '\\' => some '\\'
  | _ => none

/-- The character whose code point digits in base sixteen spell. -/
def spelled? (ds : List Char) : Option Char := (Text.numberIn 16 ds).bind Text.charOf?

/-- Reads on behind the opening quote of a string; `read` holds the characters so far, the last
one first. -/
def basicTail (read : List Char) : Reader String
  | '"' :: rest => some (String.ofList read.reverse, rest)
  | '\\' :: 'u' :: a :: b :: c :: d :: rest =>
    match spelled? [a, b, c, d] with
    | some x => basicTail (x :: read) rest
    | none => none
  | '\\' :: 'U' :: a :: b :: c :: d :: e :: f :: g :: h :: rest =>
    match spelled? [a, b, c, d, e, f, g, h] with
    | some x => basicTail (x :: read) rest
    | none => none
  | '\\' :: e :: rest =>
    match shortEscape e with
    | some x => basicTail (x :: read) rest
    | none => none
  | c :: rest => if isPlain c then basicTail (c :: read) rest else none
  | [] => none

/-- Whether nothing is left of the line but space. -/
def endsLine (s : List Char) : Bool := (newLine? (skipBlank s)).isSome

/-- Reads on behind the opening quotes of a string of several lines.  `skipping` says that the
end of a line was escaped, so that space is passed over. -/
def longBasicTail (skipping : Bool) (read : List Char) : Reader String
  | '"' :: '"' :: '"' :: '"' :: '"' :: rest =>
    some (String.ofList ('"' :: '"' :: read).reverse, rest)
  | '"' :: '"' :: '"' :: '"' :: rest => some (String.ofList ('"' :: read).reverse, rest)
  | '"' :: '"' :: '"' :: rest => some (String.ofList read.reverse, rest)
  | '\\' :: 'u' :: a :: b :: c :: d :: rest =>
    match spelled? [a, b, c, d] with
    | some x => longBasicTail false (x :: read) rest
    | none => none
  | '\\' :: 'U' :: a :: b :: c :: d :: e :: f :: g :: h :: rest =>
    match spelled? [a, b, c, d, e, f, g, h] with
    | some x => longBasicTail false (x :: read) rest
    | none => none
  | '\r' :: '\n' :: rest => longBasicTail skipping (if skipping then read else '\n' :: read) rest
  | '\\' :: e :: rest =>
    if endsLine (e :: rest) then longBasicTail true read (e :: rest)
    else match shortEscape e with
      | some x => longBasicTail false (x :: read) rest
      | none => none
  | c :: rest =>
    if c = '\n' ∨ isBlank c then longBasicTail skipping (if skipping then read else c :: read) rest
    else if isPlain c then longBasicTail false (c :: read) rest
    else none
  | [] => none

/-- Reads on behind the opening mark of a string without escapes. -/
def literalTail (read : List Char) : Reader String
  | '\'' :: rest => some (String.ofList read.reverse, rest)
  | c :: rest => if isPlain c then literalTail (c :: read) rest else none
  | [] => none

/-- Reads on behind the opening marks of a string of several lines without escapes. -/
def longLiteralTail (read : List Char) : Reader String
  | '\'' :: '\'' :: '\'' :: '\'' :: '\'' :: rest =>
    some (String.ofList ('\'' :: '\'' :: read).reverse, rest)
  | '\'' :: '\'' :: '\'' :: '\'' :: rest => some (String.ofList ('\'' :: read).reverse, rest)
  | '\'' :: '\'' :: '\'' :: rest => some (String.ofList read.reverse, rest)
  | '\r' :: '\n' :: rest => longLiteralTail ('\n' :: read) rest
  | c :: rest => if c = '\n' ∨ isPlain c then longLiteralTail (c :: read) rest else none
  | [] => none

/-- The text without the end of a line in front. -/
def skipFirstLineEnd (s : List Char) : List Char := (newLine? s).getD s

/-- Reads a string. -/
def string : Reader String
  | '"' :: '"' :: '"' :: rest => longBasicTail false [] (skipFirstLineEnd rest)
  | '"' :: rest => basicTail [] rest
  | '\'' :: '\'' :: '\'' :: rest => longLiteralTail [] (skipFirstLineEnd rest)
  | '\'' :: rest => literalTail [] rest
  | _ => none

/-! ### Numbers -/

/-- Whether the character is a digit in the base. -/
def isDigitIn (base : Nat) (c : Char) : Bool :=
  match Text.hexValue? c with
  | some d => d < base
  | none => false

/-- Reads digits between which single underscores may stand; `between` says that an underscore
may come next. -/
def digitsTail (base : Nat) (between : Bool) (read : List Char) : Reader (List Char)
  | [] => if between then some (read.reverse, []) else none
  | c :: rest =>
    if isDigitIn base c then digitsTail base true (c :: read) rest
    else if !between then none
    else if c = '_' then digitsTail base false read rest
    else some (read.reverse, c :: rest)

/-- Reads at least one digit. -/
def digits (base : Nat) : Reader (List Char) := digitsTail base false []

/-- Cuts off a sign; the flag says whether it is a minus. -/
def sign : List Char → Bool × List Char
  | '+' :: rest => (false, rest)
  | '-' :: rest => (true, rest)
  | s => (false, s)

/-- Reads a whole number in base ten without its sign; behind a zero in front nothing follows. -/
def decimal : Reader (List Char)
  | '0' :: rest => some (['0'], rest)
  | s => digits 10 s

/-- The number that digits in base ten spell. -/
def valueOf (ds : List Char) : Nat := (Text.numberIn 10 ds).getD 0

/-- The floating point number `ds * 10 ^ exponent`.  One beyond all finite numbers is refused
unless it is negative. -/
def realOf (negative : Bool) (ds : List Char) (exponent : Int) : Option Real :=
  let n := valueOf ds
  let size : Int := exponent + (Nat.toDigits 10 n).length
  if n = 0 ∨ size < -400 then some (.finite negative .zero)
  else
    let x := if 400 < size then Binary64.infinity else Binary64.ofDecimal n exponent
    if x = .infinity then (if negative then some (.infinite true) else none)
    else some (.finite negative x)

/-- Reads the exponent of a number, behind its letter. -/
def exponentTail : Reader Int := fun s => do
  let (negative, s) := sign s
  let (ds, s) ← digits 10 s
  return (if negative then -(valueOf ds : Int) else (valueOf ds : Int), s)

/-- Whether the character begins an exponent. -/
def isExponentMark (c : Char) : Bool := c = 'e' || c = 'E'

/-- Reads on behind the whole part of a number. -/
def numberTail (negative : Bool) (ds : List Char) : Reader Value := fun s => do
  match s with
  | '.' :: rest =>
    let (fs, rest) ← digits 10 rest
    match rest with
    | c :: rest' =>
      if isExponentMark c then do
        let (e, rest) ← exponentTail rest'
        return (.real (← realOf negative (ds ++ fs) (e - fs.length)), rest)
      else return (.real (← realOf negative (ds ++ fs) (-(fs.length : Int))), rest)
    | [] => return (.real (← realOf negative (ds ++ fs) (-(fs.length : Int))), [])
  | c :: rest =>
    if isExponentMark c then do
      let (e, rest) ← exponentTail rest
      return (.real (← realOf negative ds e), rest)
    else return (.whole (← wholeOf), s)
  | [] => return (.whole (← wholeOf), [])
where
  /-- The whole number, if it fits into 64 bits. -/
  wholeOf : Option Int :=
    let n : Int := if negative then -(valueOf ds : Int) else (valueOf ds : Int)
    if -0x8000000000000000 ≤ n ∧ n < 0x8000000000000000 then some n else none

/-- Reads a whole number in another base, behind its mark. -/
def numberInBase (base : Nat) : Reader Value := fun s => do
  let (ds, s) ← digits base s
  let n ← Text.numberIn base ds
  if n < 0x8000000000000000 then return (.whole n, s) else none

/-- Reads a number. -/
def number : Reader Value
  | '0' :: 'x' :: rest => numberInBase 16 rest
  | '0' :: 'o' :: rest => numberInBase 8 rest
  | '0' :: 'b' :: rest => numberInBase 2 rest
  | s => do
    let (negative, s) := sign s
    match s with
    | 'i' :: 'n' :: 'f' :: rest => return (.real (.infinite negative), rest)
    | 'n' :: 'a' :: 'n' :: rest => return (.real .undefined, rest)
    | s =>
      let (ds, s) ← decimal s
      numberTail negative ds s

/-! ### Dates and times -/

/-- Reads a number of a fixed count of digits that lies between two bounds. -/
def fixed (count low high : Nat) : Reader Nat := fun s =>
  let ds := s.take count
  if ds.length = count ∧ ds.all Char.isDigit ∧ low ≤ valueOf ds ∧ valueOf ds ≤ high then
    some (valueOf ds, s.drop count)
  else none

/-- Passes over one given character. -/
def expect (c : Char) : List Char → Option (List Char)
  | d :: rest => if d = c then some rest else none
  | [] => none

/-- Passes over a date. -/
def date? (s : List Char) : Option (List Char) := do
  let (y, s) ← fixed 4 0 9999 s
  let s ← expect '-' s
  let (m, s) ← fixed 2 1 12 s
  let s ← expect '-' s
  let (d, s) ← fixed 2 1 31 s
  if d ≤ Timestamp.daysInMonth y m then some s else none

/-- Passes over the fraction of a second, if there is one. -/
def skipFraction : List Char → List Char
  | '.' :: c :: rest => if c.isDigit then rest.dropWhile Char.isDigit else '.' :: c :: rest
  | s => s

/-- Passes over a time of day. -/
def time? (s : List Char) : Option (List Char) := do
  let (_, s) ← fixed 2 0 23 s
  let s ← expect ':' s
  let (_, s) ← fixed 2 0 59 s
  let s ← expect ':' s
  let (_, s) ← fixed 2 0 60 s
  return skipFraction s

/-- Passes over the offset from universal time, if there is one. -/
def skipOffset (s : List Char) : List Char :=
  match s with
  | c :: rest =>
    if c = 'Z' ∨ c = 'z' then rest
    else if c = '+' ∨ c = '-' then
      (do
        let (_, r) ← fixed 2 0 23 rest
        let r ← expect ':' r
        let (_, r) ← fixed 2 0 59 r
        return r).getD s
    else s
  | [] => []

/-- Passes over a date, a time or both. -/
def moment? (s : List Char) : Option (List Char) :=
  match date? s with
  | none => time? s
  | some rest =>
    match rest with
    | c :: more =>
      if c = 'T' ∨ c = 't' ∨ c = ' ' then
        match time? more with
        | some r => some (skipOffset r)
        | none => some rest
      else some rest
    | [] => some []

/-! ### Words of one kind -/

/-- Reads a string, a number, a date or a truth value. -/
def scalar : Reader Value
  | [] => none
  | c :: rest =>
    let s := c :: rest
    if c = '"' ∨ c = '\'' then (string s).map fun p => (.text p.1, p.2)
    else if c.isDigit ∨ c = '+' ∨ c = '-' then
      match moment? s with
      | some r => some (.moment (s.take (s.length - r.length)), r)
      | none => number s
    else match s with
      | 't' :: 'r' :: 'u' :: 'e' :: r => some (.boolean true, r)
      | 'f' :: 'a' :: 'l' :: 's' :: 'e' :: r => some (.boolean false, r)
      | 'i' :: 'n' :: 'f' :: r => some (.real (.infinite false), r)
      | 'n' :: 'a' :: 'n' :: r => some (.real .undefined, r)
      | _ => none

/-! ### Names -/

/-- Whether the character may stand in a name without quotes. -/
def isBare (c : Char) : Bool := c.isAlphanum || c = '_' || c = '-'

/-- Reads one part of a name. -/
def namePart : Reader String
  | '"' :: rest => basicTail [] rest
  | '\'' :: rest => literalTail [] rest
  | s =>
    let bare := s.takeWhile isBare
    if bare = [] then none else some (String.ofList bare, s.dropWhile isBare)

/-- Reads the parts of a name, between which dots stand. -/
def nameParts : Nat → Reader (List String)
  | 0, _ => none
  | fuel + 1, s => do
    let (part, s) ← namePart (skipBlank s)
    match skipBlank s with
    | '.' :: rest =>
      let (parts, s) ← nameParts fuel rest
      return (part :: parts, s)
    | s => return ([part], s)

/-- How deep names and values may be nested. -/
def maxDepth : Nat := 80

/-- Reads a name as the list of its parts. -/
def name : Reader (List String) := fun s => do
  let (parts, s) ← nameParts (s.length + 1) s
  if parts.length < maxDepth then return (parts, s) else none

end PackageStaging.Toml
