/-
# Writing JSON

The values that this library writes hold no numbers.  `compact` writes one without any space,
`pretty` with one member to a line.  Both are lists of characters, so that a reader can be run on
them.
-/
import PackageStaging.Text.Fields

namespace PackageStaging.Json

/-- A value to be written; the members of an object stand in the order in which they are
written. -/
inductive Value where
  | null
  | boolean (b : Bool)
  | text (s : String)
  | list (elements : List Value)
  | object (members : List (String × Value))
deriving Repr

/-- A digit in base sixteen. -/
def hexDigit (n : Nat) : Char :=
  if n < 10 then Char.ofNat ('0'.toNat + n) else Char.ofNat ('a'.toNat + (n - 10))

/-- How a character is written inside a string. -/
def escapedChar (c : Char) : List Char :=
  if c = '"' then ['\\', '"']
  else if c = '\\' then ['\\', '\\']
  else if c = '\n' then ['\\', 'n']
  else if c = '\r' then ['\\', 'r']
  else if c = '\t' then ['\\', 't']
  else if c = '\x08' then ['\\', 'b']
  else if c = '\x0c' then ['\\', 'f']
  else if c.toNat < 0x20 then
    ['\\', 'u', '0', '0', hexDigit (c.toNat / 16), hexDigit (c.toNat % 16)]
  else [c]

/-- A string as it is written. -/
def writtenString (s : String) : List Char :=
  '"' :: s.toList.flatMap escapedChar ++ ['"']

/-- A truth value as it is written. -/
def writtenBoolean (b : Bool) : List Char :=
  if b then ['t', 'r', 'u', 'e'] else ['f', 'a', 'l', 's', 'e']

mutual

/-- The value without any space. -/
def Value.compact : Value → List Char
  | .null => ['n', 'u', 'l', 'l']
  | .boolean b => writtenBoolean b
  | .text s => writtenString s
  | .list vs => '[' :: compactElements vs ++ [']']
  | .object ms => '\x7b' :: compactMembers ms ++ ['\x7d']

/-- The elements of a list, separated by commas. -/
def compactElements : List Value → List Char
  | [] => []
  | [v] => v.compact
  | v :: vs => v.compact ++ ',' :: compactElements vs

/-- The members of an object, separated by commas. -/
def compactMembers : List (String × Value) → List Char
  | [] => []
  | [(k, v)] => writtenString k ++ ':' :: v.compact
  | (k, v) :: ms => writtenString k ++ ':' :: v.compact ++ ',' :: compactMembers ms

end

/-- The start of a line at this depth. -/
def newLine (depth : Nat) : List Char := '\n' :: List.replicate (2 * depth) ' '

mutual

/-- The value with each member on a line of its own, at this depth. -/
def Value.prettyAt (depth : Nat) : Value → List Char
  | .null => ['n', 'u', 'l', 'l']
  | .boolean b => writtenBoolean b
  | .text s => writtenString s
  | .list [] => ['[', ']']
  | .list (v :: vs) => '[' :: prettyElements (depth + 1) (v :: vs) ++ newLine depth ++ [']']
  | .object [] => ['\x7b', '\x7d']
  | .object (m :: ms) =>
    '\x7b' :: prettyMembers (depth + 1) (m :: ms) ++ newLine depth ++ ['\x7d']

/-- The elements of a list, each on a line of its own. -/
def prettyElements (depth : Nat) : List Value → List Char
  | [] => []
  | [v] => newLine depth ++ v.prettyAt depth
  | v :: vs => newLine depth ++ v.prettyAt depth ++ ',' :: prettyElements depth vs

/-- The members of an object, each on a line of its own. -/
def prettyMembers (depth : Nat) : List (String × Value) → List Char
  | [] => []
  | [(k, v)] => newLine depth ++ writtenString k ++ ':' :: ' ' :: v.prettyAt depth
  | (k, v) :: ms =>
    newLine depth ++ writtenString k ++ ':' :: ' ' :: v.prettyAt depth
      ++ ',' :: prettyMembers depth ms

end

/-- The value with each member on a line of its own. -/
def Value.pretty (v : Value) : List Char := v.prettyAt 0

/-- The value as text without any space. -/
def Value.compactText (v : Value) : String := String.ofList v.compact

/-- The value as text with each member on a line of its own. -/
def Value.prettyText (v : Value) : String := String.ofList v.pretty

/-- A text, or `null` for none. -/
def Value.textOrNull : Option String → Value
  | some s => .text s
  | none => .null

end PackageStaging.Json
