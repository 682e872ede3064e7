/-
# UTF-8 in a stream of bytes

Files, path names and message bodies are lists of bytes, most of which spell text.  A stream
is cut into pieces: a character, or the bytes that begin a character and then break off.
Every reader of text works on the pieces: the strict one (`decode?`) refuses a broken piece,
the lenient one (`lossy`) puts the replacement character in its place, and the one for data
formats (`source`) hands the bytes of a broken piece on, one by one, as units that are no
character.
-/
namespace PackageStaging

/-- The content of a file, a path name or the body of a message. -/
abbrev Bytes := List UInt8

namespace Utf8

/-- What stands at one place of a byte stream. -/
inductive Piece where
  /-- A well formed character. -/
  | char (c : Char)
  /-- The longest run of bytes that begins a character here and is then not continued. -/
  | broken (bytes : Bytes)
deriving DecidableEq, Repr

/-- The character of a piece that is one. -/
def Piece.char? : Piece → Option Char
  | .char c => some c
  | .broken _ => none

/-- The bytes that spell a text. -/
def encode (s : String) : Bytes :=
  s.toList.flatMap String.utf8EncodeChar

/-- What the first byte of a character of several bytes announces: the number of bytes that
follow it, and the least and the greatest value of the first of them. -/
def announced (a : UInt8) : Option (Nat × UInt8 × UInt8) :=
  if 0xC2 ≤ a ∧ a ≤ 0xDF then some (1, 0x80, 0xBF)
  else if a = 0xE0 then some (2, 0xA0, 0xBF)
  else if a = 0xED then some (2, 0x80, 0x9F)
  else if 0xE1 ≤ a ∧ a ≤ 0xEF then some (2, 0x80, 0xBF)
  else if a = 0xF0 then some (3, 0x90, 0xBF)
  else if 0xF1 ≤ a ∧ a ≤ 0xF3 then some (3, 0x80, 0xBF)
  else if a = 0xF4 then some (3, 0x80, 0x8F)
  else none

/-- Whether a byte may stand third or fourth in a character. -/
def isTail (b : UInt8) : Bool := 0x80 ≤ b && b ≤ 0xBF

/-- The six bits that a byte after the first one carries. -/
def payload (b : UInt8) : Nat := b.toNat % 0x40

/-- Cuts a byte stream into its pieces; their bytes in a row are the stream again. -/
def pieces : Bytes → List Piece
  | [] => []
  | a :: rest =>
    if a < 0x80 then .char (Char.ofNat a.toNat) :: pieces rest
    else match announced a with
      | none => .broken [a] :: pieces rest
      | some (count, low, high) =>
        match rest with
        | [] => [.broken [a]]
        | b :: rest₁ =>
          if ¬(low ≤ b ∧ b ≤ high) then .broken [a] :: pieces (b :: rest₁)
          else if count = 1 then
            .char (Char.ofNat (a.toNat % 0x20 * 0x40 + payload b)) :: pieces rest₁
          else match rest₁ with
            | [] => [.broken [a, b]]
            | c :: rest₂ =>
              if !isTail c then .broken [a, b] :: pieces (c :: rest₂)
              else if count = 2 then
                .char (Char.ofNat (a.toNat % 0x10 * 0x1000 + payload b * 0x40 + payload c))
                  :: pieces rest₂
              else match rest₂ with
                | [] => [.broken [a, b, c]]
                | d :: rest₃ =>
                  if !isTail d then .broken [a, b, c] :: pieces (d :: rest₃)
                  else
                    .char (Char.ofNat (a.toNat % 0x08 * 0x40000 + payload b * 0x1000
                      + payload c * 0x40 + payload d)) :: pieces rest₃

/-- The text that the bytes spell, if they are well formed throughout. -/
def decode? (bytes : Bytes) : Option String :=
  ((pieces bytes).mapM Piece.char?).map String.ofList

/-- The text that the bytes spell, with the replacement character for each broken piece. -/
def lossy (bytes : Bytes) : String :=
  String.ofList ((pieces bytes).map fun piece => piece.char?.getD '\ufffd')

/-- The stream as the readers of data formats take it: characters, and `none` for each byte
that belongs to no character. -/
def source (bytes : Bytes) : List (Option Char) :=
  (pieces bytes).flatMap fun
    | .char c => [some c]
    | .broken bs => bs.map fun _ => none

end Utf8

/-- A text as the readers of data formats take it. -/
def Utf8.sourceOfString (s : String) : List (Option Char) := s.toList.map some

end PackageStaging
