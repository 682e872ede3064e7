/-
# Text without control sequences

Where no terminal reads a text, its control sequences and control characters are left out, so
that only what a person can read is left.  A sequence begins with the escape character; how it
goes on says where it ends.
-/
namespace PackageStaging.Text

/-- Where in a control sequence a text is. -/
inductive ControlState where
  /-- In no sequence. -/
  | ground
  /-- After the escape character and perhaps some intermediate characters; the flag says whether
  there were any. -/
  | escape (intermediate : Bool)
  /-- In a sequence with parameters, which ends with a letter or the like. -/
  | parameters
  /-- In a command for the operating system, which ends with the bell. -/
  | command
  /-- In another string, which ends with the next escape character only. -/
  | string
deriving DecidableEq, Repr

/-- The escape character. -/
def escapeCharacter : Char := '\x1b'

/-- Whether a character cancels a sequence. -/
def isCancel (c : Char) : Bool := c = '\x18' || c = '\x1a'

/-- Whether a character is a control character. -/
def isControl (c : Char) : Bool := c.toNat < 0x20 || c.toNat = 0x7F

/-- Whether a control character belongs to the layout of a text. -/
def isLayout (c : Char) : Bool := c = '\t' || c = '\n' || c = '\x0c' || c = '\r'

/-- The state in which a sequence is that has just begun with this character. -/
def ControlState.afterEscape (intermediate : Bool) (c : Char) : ControlState :=
  let n := c.toNat
  if 0x20 ≤ n ∧ n ≤ 0x2F then .escape true
  else if n < 0x30 ∨ 0x7F ≤ n then .escape intermediate
  else if intermediate then .ground
  else if c = '[' then .parameters
  else if c = ']' then .command
  else if c = 'P' ∨ c = 'X' ∨ c = '^' ∨ c = '_' then .string
  else .ground

/-- The state after a character, and whether the character is kept. -/
def ControlState.step (state : ControlState) (c : Char) : ControlState × Bool :=
  if c = escapeCharacter then (.escape false, false)
  else if isCancel c then (.ground, false)
  else match state with
    | .ground => (.ground, !isControl c || isLayout c)
    | .escape intermediate =>
      if isLayout c then (.ground, true) else (afterEscape intermediate c, false)
    | .parameters =>
      if isLayout c then (.ground, true)
      else if 0x40 ≤ c.toNat ∧ c.toNat ≤ 0x7E then (.ground, false)
      else (.parameters, false)
    | .command => (if c = '\x07' then .ground else .command, false)
    | .string => (.string, false)

/-- What is kept of a text. -/
def plainFrom : ControlState → List Char → List Char
  | _, [] => []
  | state, c :: cs =>
    let (next, kept) := state.step c
    if kept then c :: plainFrom next cs else plainFrom next cs

/-- The text without control sequences and control characters. -/
def plain (s : String) : String := String.ofList (plainFrom .ground s.toList)

end PackageStaging.Text
