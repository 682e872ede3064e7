/-
# Timestamps

An instant in universal time, to the nanosecond, with the days of the Gregorian calendar.
`Timestamp.parse` reads the relaxed form of RFC 3339: white space may stand in front of each
part, digits may be missing in front, the time may follow the date behind a space, and an offset
may be given as `UTC`.  `Timestamp.text` writes the strict form with the offset `Z` and as few
groups of three digits of a second as the instant needs.
-/
import PackageStaging.Text.Blank

namespace PackageStaging

/-- An instant: whole seconds since the start of 1970 and nanoseconds within the second.  In a
leap second the nanoseconds run on from 10 ^ 9. -/
structure Timestamp where
  /-- Seconds since 1970-01-01T00:00:00Z. -/
  seconds : Int
  /-- Nanoseconds since the start of that second, below 2 * 10 ^ 9. -/
  nanos : Nat
deriving DecidableEq, Repr, Inhabited

namespace Timestamp

/-- Why a text is no timestamp. -/
inductive Fault where
  /-- A part is beyond what it may be. -/
  | outOfRange
  /-- The instant lies outside the years that are supported. -/
  | impossible
  /-- A character that cannot stand at its place. -/
  | invalid
  /-- The text ends before the timestamp does. -/
  | tooShort
  /-- The timestamp ends before the text does. -/
  | tooLong
deriving DecidableEq, Repr

/-- The wording of a fault. -/
def Fault.message : Fault → String
  | .outOfRange => "input is out of range"
  | .impossible => "no possible date and time matching input"
  | .invalid => "input contains invalid characters"
  | .tooShort => "premature end of input"
  | .tooLong => "trailing input"

/-! ### The calendar -/

/-- Whether the year has 366 days. -/
def isLeapYear (y : Int) : Bool := y % 4 = 0 && (y % 100 ≠ 0 || y % 400 = 0)

/-- The number of days of a month of a year. -/
def daysInMonth (y : Int) (m : Nat) : Nat :=
  if m = 2 then (if isLeapYear y then 29 else 28)
  else if m = 4 ∨ m = 6 ∨ m = 9 ∨ m = 11 then 30
  else 31

/-- The number of days from 1970-01-01 to a date.  Years are counted from March on, so that the
leap day is the last day of its year. -/
def daysOfDate (y : Int) (m d : Nat) : Int :=
  let y' := if m ≤ 2 then y - 1 else y
  let era := y'.fdiv 400
  let yoe := y' - era * 400
  let mp : Int := if m ≤ 2 then (m : Int) + 9 else (m : Int) - 3
  let doy := (153 * mp + 2) / 5 + (d : Int) - 1
  let doe := yoe * 365 + yoe / 4 - yoe / 100 + doy
  era * 146097 + doe - 719468

/-- The date that lies a number of days after 1970-01-01. -/
def dateOfDays (days : Int) : Int × Nat × Nat :=
  let z := days + 719468
  let era := z.fdiv 146097
  let doe := z - era * 146097
  let yoe := (doe - doe / 1460 + doe / 36524 - doe / 146096) / 365
  let doy := doe - (365 * yoe + yoe / 4 - yoe / 100)
  let mp := (5 * doy + 2) / 153
  let d := doy - (153 * mp + 2) / 5 + 1
  let m := if mp < 10 then mp + 3 else mp - 9
  let y := yoe + era * 400 + (if m ≤ 2 then 1 else 0)
  (y, m.toNat, d.toNat)

/-- The first and the last year that are supported. -/
def yearRange : Int × Int := (-262143, 262142)

/-! ### Reading -/

/-- The value of the decimal digits. -/
def digitsValue (ds : List Char) : Nat :=
  ds.foldl (fun n c => n * 10 + (c.toNat - '0'.toNat)) 0

/-- Reads a number of at least one digit, and of at most `width` if that is given. -/
def number (width : Option Nat) (s : List Char) : Except Fault (Nat × List Char) :=
  match s with
  | [] => .error .tooShort
  | c :: _ =>
    if c.isDigit then
      let reach := match width with
        | some w => s.take w
        | none => s
      let ds := reach.takeWhile Char.isDigit
      .ok (digitsValue ds, s.drop ds.length)
    else .error .invalid

/-- Reads a number that lies between two bounds, behind white space. -/
def part (low high : Nat) (s : List Char) : Except Fault (Nat × List Char) := do
  let (n, s) ← number (some 2) (Text.dropBlank s)
  if low ≤ n ∧ n ≤ high then .ok (n, s) else .error .outOfRange

/-- Reads one given character behind white space. -/
def literal (c : Char) (s : List Char) : Except Fault (List Char) :=
  match Text.dropBlank s with
  | [] => .error .tooShort
  | d :: s => if d = c then .ok s else .error .invalid

/-- Reads a year: four digits at most, or any number of them behind a sign. -/
def year (s : List Char) : Except Fault (Int × List Char) := do
  let s := Text.dropBlank s
  let (y, s) ← match s with
    | '-' :: s => do
      let (n, s) ← number none s
      pure (-(n : Int), s)
    | '+' :: s => do
      let (n, s) ← number none s
      pure ((n : Int), s)
    | s => do
      let (n, s) ← number (some 4) s
      pure ((n : Int), s)
  if -2147483648 ≤ y ∧ y ≤ 2147483647 then .ok (y, s) else .error .outOfRange

/-- Reads the fraction of a second, if there is one, in nanoseconds; digits after the ninth are
passed over. -/
def fraction (s : List Char) : Except Fault (Nat × List Char) :=
  match s with
  | '.' :: s => do
    let (n, rest) ← number (some 9) s
    let count := s.length - rest.length
    pure (n * Nat.pow 10 (9 - count), rest.dropWhile Char.isDigit)
  | s => .ok (0, s)

/-- The first two characters, if the text has two bytes. -/
def twoDigits (s : List Char) : Except Fault (Nat × Nat × List Char) :=
  match s with
  | [] => .error .tooShort
  | [c] => if c.utf8Size < 2 then .error .tooShort else .error .invalid
  | a :: b :: s =>
    if a.isDigit && b.isDigit then .ok (digitsValue [a], digitsValue [b], s) else .error .invalid

/-- Reads the offset of local time from universal time, in seconds. -/
def offset (s : List Char) : Except Fault (Int × List Char) :=
  if (s.take 3).map Char.toUpper = ['U', 'T', 'C'] then .ok (0, s.drop 3)
  else match s with
    | [] => .error .tooShort
    | c :: rest =>
      if c = 'Z' ∨ c = 'z' then .ok (0, rest)
      else if c = '+' ∨ c = '-' ∨ c = '\u2212' then do
        let (h₁, h₂, rest) ← twoDigits rest
        let rest := rest.dropWhile fun c => c = ':' || Text.isBlank c
        let (m₁, m₂, rest) ← twoDigits rest
        if 5 < m₁ then .error .outOfRange
        else
          let seconds : Int := (((h₁ * 10 + h₂) * 60 + m₁ * 10 + m₂) * 60 : Nat)
          .ok (if c = '+' then seconds else -seconds, rest)
      else .error .invalid

/-- Reads a timestamp in the relaxed form. -/
def parse (text : String) : Except Fault Timestamp := do
  let (y, s) ← year text.toList
  let s ← literal '-' s
  let (m, s) ← part 1 12 s
  let s ← literal '-' s
  let (d, s) ← part 1 31 s
  let s ← match s with
    | [] => .error .tooShort
    | c :: s => if c = 't' ∨ c = 'T' ∨ c = ' ' then .ok s else .error .invalid
  let (h, s) ← part 0 23 s
  let s ← literal ':' s
  let (min, s) ← part 0 59 s
  let s ← literal ':' s
  let (sec, s) ← part 0 60 s
  let (frac, s) ← fraction s
  let (off, s) ← offset (Text.dropBlank s)
  if Text.dropBlank s ≠ [] then .error .tooLong
  else if y < yearRange.1 ∨ yearRange.2 < y ∨ daysInMonth y m < d then .error .outOfRange
  else if 86400 ≤ off.natAbs then .error .outOfRange
  else
    let (second, nanos) := if sec = 60 then (59, 1000000000 + frac) else (sec, frac)
    let local' : Int := daysOfDate y m d * 86400 + ((h * 60 + min) * 60 + second : Nat)
    let instant := local' - off
    let (uy, _, _) := dateOfDays (instant.fdiv 86400)
    if uy < yearRange.1 ∨ yearRange.2 < uy then .error .impossible
    else .ok ⟨instant, nanos⟩

/-! ### Writing -/

/-- A number with zeros in front up to a width. -/
def padded (width n : Nat) : String :=
  let ds := Nat.toDigits 10 n
  String.ofList (List.replicate (width - ds.length) '0' ++ ds)

/-- A year: four digits, with a sign if it has more or lies before the year zero. -/
def yearText (y : Int) : String :=
  if 0 ≤ y ∧ y ≤ 9999 then padded 4 y.toNat
  else if 0 ≤ y then "+" ++ padded 4 y.toNat
  else "-" ++ padded 4 y.natAbs

/-- A fraction of a second: none, milliseconds, microseconds or nanoseconds. -/
def fractionText (n : Nat) : String :=
  if n = 0 then ""
  else if n % 1000000 = 0 then "." ++ padded 3 (n / 1000000)
  else if n % 1000 = 0 then "." ++ padded 6 (n / 1000)
  else "." ++ padded 9 n

/-- The timestamp in the strict form, in universal time. -/
def text (t : Timestamp) : String :=
  let days := t.seconds.fdiv 86400
  let (y, m, d) := dateOfDays days
  let inDay := (t.seconds - days * 86400).toNat
  let leap := 1000000000 ≤ t.nanos
  let second := inDay % 60 + (if leap then 1 else 0)
  let nanos := if leap then t.nanos - 1000000000 else t.nanos
  yearText y ++ "-" ++ padded 2 m ++ "-" ++ padded 2 d ++ "T" ++ padded 2 (inDay / 3600) ++ ":"
    ++ padded 2 (inDay / 60 % 60) ++ ":" ++ padded 2 second ++ fractionText nanos ++ "Z"

instance : ToString Timestamp := ⟨text⟩

end Timestamp

end PackageStaging
