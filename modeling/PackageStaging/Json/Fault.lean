/-
# Why a document is refused

A document is decoded while it is read, and the first fault met is the one reported.  A fault is
either a matter of form (`Flaw`: the text is no JSON) or one of content (`Mismatch`: it is JSON
so far, but not of the shape that is wanted).  Most faults are located in the document.
-/
import PackageStaging.Number.Shortest
import PackageStaging.Text.Printable

namespace PackageStaging.Json

/-- A fault of form. -/
inductive Flaw where
  | unfinishedList
  | unfinishedObject
  | unfinishedString
  | unfinishedValue
  | wantsColon
  | wantsCommaOrBracket
  | wantsCommaOrBrace
  | wantsKeyword
  | wantsValue
  | badEscape
  | badNumber
  | hugeNumber
  | badText
  | controlCharacter
  | wantsKey
  | loneSurrogate
  | wantsSecondSurrogate
  | trailingComma
  | trailingText
deriving DecidableEq, Repr

/-- The wording of a fault of form. -/
def Flaw.message : Flaw → String
  | .unfinishedList => "EOF while parsing a list"
  | .unfinishedObject => "EOF while parsing an object"
  | .unfinishedString => "EOF while parsing a string"
  | .unfinishedValue => "EOF while parsing a value"
  | .wantsColon => "expected `:`"
  | .wantsCommaOrBracket => "expected `,` or `]`"
  | .wantsCommaOrBrace => "expected `,` or `\x7d`"
  | .wantsKeyword => "expected ident"
  | .wantsValue => "expected value"
  | .badEscape => "invalid escape"
  | .badNumber => "invalid number"
  | .hugeNumber => "number out of range"
  | .badText => "invalid unicode code point"
  | .controlCharacter => "control character (\\u0000-\\u001F) found while parsing a string"
  | .wantsKey => "key must be a string"
  | .loneSurrogate => "lone leading surrogate in hex escape"
  | .wantsSecondSurrogate => "unexpected end of hex escape"
  | .trailingComma => "trailing comma"
  | .trailingText => "trailing characters"

/-- What stands in a document where something else is wanted. -/
inductive Found where
  | null
  | boolean (b : Bool)
  | whole (n : Int)
  /-- A number with a fraction, with an exponent, or beyond 64 bits. -/
  | float (negative : Bool) (magnitude : Binary64)
  | text (s : String)
  | list
  | object
deriving DecidableEq, Repr

/-- The wording of what was found. -/
def Found.message : Found → String
  | .null => "null"
  | .boolean b => "boolean `" ++ (if b then "true" else "false") ++ "`"
  | .whole n => "integer `" ++ toString n ++ "`"
  | .float negative x =>
    "floating point `" ++ (if negative then "-" else "") ++ (Decimal.shortest x).scientific ++ "`"
  | .text s => "string " ++ Text.quoted s
  | .list => "sequence"
  | .object => "map"

/-- A fault of content. -/
inductive Mismatch where
  /-- A member that must be there is not. -/
  | missing (key : String)
  /-- A member occurs twice. -/
  | repeated (key : String)
  /-- A value of another type than the wanted one. -/
  | wrongType (found : Found) (wanted : String)
  /-- A list that ends too soon for the record it stands for. -/
  | wrongLength (length : Nat) (wanted : String)
  /-- A word that is none of those that may stand there. -/
  | unknownWord (word : String) (known : List String)
  /-- A value of the right type that its reader refuses. -/
  | refused (reason : String)
deriving DecidableEq, Repr

/-- A list of words, each between back quotes. -/
def wordList (words : List String) : String :=
  ", ".intercalate (words.map fun w => "`" ++ w ++ "`")

/-- The wording of a fault of content. -/
def Mismatch.message : Mismatch → String
  | .missing key => "missing field `" ++ key ++ "`"
  | .repeated key => "duplicate field `" ++ key ++ "`"
  | .wrongType found wanted => "invalid type: " ++ found.message ++ ", expected " ++ wanted
  | .wrongLength n wanted => "invalid length " ++ toString n ++ ", expected " ++ wanted
  | .unknownWord w known =>
    "unknown variant `" ++ w ++ "`, expected one of " ++ wordList known
  | .refused reason => reason

/-- What is wrong with a document. -/
inductive Cause where
  | form (flaw : Flaw)
  | content (mismatch : Mismatch)
deriving DecidableEq, Repr

/-- A line, counted from one, and the number of bytes before the place in that line. -/
structure Place where
  line : Nat
  column : Nat
deriving DecidableEq, Repr

/-- A fault of a document, and where it was found. -/
structure Fault where
  cause : Cause
  place : Option Place
deriving DecidableEq, Repr

/-- The wording of what is wrong, without the place. -/
def Cause.message : Cause → String
  | .form flaw => flaw.message
  | .content mismatch => mismatch.message

/-- The wording of a fault. -/
def Fault.message (f : Fault) : String :=
  match f.place with
  | none => f.cause.message
  | some p => f.cause.message ++ " at line " ++ toString p.line ++ " column " ++ toString p.column

end PackageStaging.Json
