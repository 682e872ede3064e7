/-
# Hosts

A host is a domain or the number of a machine.  Numbers may be given in several spellings and are
written in one: four decimal bytes for an address of 32 bits, and eight pieces in base sixteen,
the longest run of zeros left out, for one of 128 bits.
-/
import PackageStaging.Text.Digits
import PackageStaging.Url.Domain
import PackageStaging.Url.Percent

namespace PackageStaging

namespace Url

/-- Why a text is no address. -/
inductive Fault where
  /-- It does not begin with a scheme. -/
  | noScheme
  /-- It does not begin with a scheme, and no others can be relative to the address that it is seen
  from. -/
  | notABase
  | emptyHost
  | badPort
  | badIpv4
  | badIpv6
  /-- A domain has no form in ASCII. -/
  | badDomain
  /-- A host of an unknown kind holds a character that no host may hold. -/
  | badCharacter
deriving DecidableEq, Repr

/-- The wording of a fault. -/
def Fault.message : Fault → String
  | .noScheme => "relative URL without a base"
  | .notABase => "relative URL with a cannot-be-a-base base"
  | .emptyHost => "empty host"
  | .badPort => "invalid port number"
  | .badIpv4 => "invalid IPv4 address"
  | .badIpv6 => "invalid IPv6 address"
  | .badDomain => "invalid international domain name"
  | .badCharacter => "invalid domain character"

/-- A host. -/
inductive Host where
  /-- A name; the empty one stands for no host. -/
  | domain (name : List Char)
  /-- A number of 32 bits. -/
  | ipv4 (address : Nat)
  /-- Eight numbers of 16 bits. -/
  | ipv6 (pieces : List Nat)
deriving DecidableEq, Repr

/-! ### Writing -/

/-- The four bytes of a number, in decimal. -/
def ipv4Text (n : Nat) : List Char :=
  Text.joined '.' ([n / 0x1000000, n / 0x10000 % 256, n / 256 % 256, n % 256].map (Nat.toDigits 10))

/-- The number of zeros that a list begins with. -/
def zeros (pieces : List Nat) : Nat := (pieces.takeWhile (· == 0)).length

/-- The greatest number of zeros in a row. -/
def longestZeros : List Nat → Nat
  | [] => 0
  | p :: ps => max (zeros (p :: ps)) (longestZeros ps)

/-- The pieces before the first run of that many zeros, and those behind it. -/
def cutZeros (n : Nat) : List Nat → List Nat × List Nat
  | [] => ([], [])
  | p :: ps =>
    if zeros (p :: ps) = n then ([], (p :: ps).drop n)
    else
      let (front, back) := cutZeros n ps
      (p :: front, back)

/-- The pieces in base sixteen, separated by colons. -/
def piecesText (pieces : List Nat) : List Char :=
  Text.joined ':' (pieces.map (Nat.toDigits 16))

/-- Eight pieces, with the first of the longest runs of zeros left out if it is longer than one. -/
def ipv6Text (pieces : List Nat) : List Char :=
  let n := longestZeros pieces
  if n < 2 then piecesText pieces
  else
    let (front, back) := cutZeros n pieces
    piecesText front ++ ':' :: ':' :: piecesText back

/-- The host as it stands in an address. -/
def Host.text : Host → List Char
  | .domain name => name
  | .ipv4 n => ipv4Text n
  | .ipv6 ps => '[' :: ipv6Text ps ++ [']']

/-! ### Reading numbers -/

/-- A number in base sixteen behind `0x`, in base eight behind `0`, else in base ten; the mark
alone is zero. -/
def ipv4Number? : List Char → Option Nat
  | [] => none
  | '0' :: 'x' :: ds => Text.numberIn 16 ds
  | '0' :: 'X' :: ds => Text.numberIn 16 ds
  | '0' :: d :: ds => Text.numberIn 8 (d :: ds)
  | ds => Text.numberIn 10 ds

/-- The labels of a domain, without an empty last one. -/
def labels (domain : List Char) : List (List Char) :=
  let ls := Text.fields '.' domain
  if 1 < ls.length ∧ ls.getLast? = some [] then ls.dropLast else ls

/-- Whether a domain has to be read as a number. -/
def endsInNumber (domain : List Char) : Bool :=
  match (labels domain).getLast? with
  | some l => (l ≠ [] && l.all Char.isDigit) || (ipv4Number? l).isSome
  | none => false

/-- The number of 32 bits whose parts are given: all but the last part stand for one byte each,
the last one for all that are left. -/
def ipv4OfParts (parts : List Nat) : Option Nat :=
  match parts.reverse with
  | [] => none
  | last :: front =>
    let n := front.length
    if 3 < n ∨ front.any (255 < ·) ∨ Nat.pow 256 (4 - n) ≤ last then none
    else some (front.reverse.foldl (fun v p => v * 256 + p) 0 * Nat.pow 256 (4 - n) + last)

/-- The number of 32 bits that a domain spells. -/
def ipv4? (domain : List Char) : Option Nat := do
  let parts ← (labels domain).mapM ipv4Number?
  ipv4OfParts parts

/-- A piece of one to four digits in base sixteen. -/
def piece? (s : List Char) : Option Nat :=
  if s = [] ∨ 4 < s.length then none else Text.numberIn 16 s

/-- A byte in decimal, without zeros in front. -/
def byte? (s : List Char) : Option Nat :=
  match s with
  | [] => none
  | '0' :: _ :: _ => none
  | s =>
    if 3 < s.length then none
    else match Text.numberIn 10 s with
      | some n => if n ≤ 255 then some n else none
      | none => none

/-- The two pieces that four decimal bytes stand for. -/
def embedded? (s : List Char) : Option (List Nat) := do
  match ← (Text.fields '.' s).mapM byte? with
  | [a, b, c, d] => some [a * 256 + b, c * 256 + d]
  | _ => none

/-- Pieces separated by colons; the last one may be four decimal bytes. -/
def pieces? : List (List Char) → Option (List Nat)
  | [] => some []
  | [last] => ((piece? last).map fun p => [p]).or (embedded? last)
  | p :: ps => do
    let p ← piece? p
    let ps ← pieces? ps
    return p :: ps

/-- Pieces separated by colons, or none at all. -/
def somePieces? (s : List Char) : Option (List Nat) :=
  if s = [] then some [] else pieces? (Text.fields ':' s)

/-- The text before the first pair of colons, and the text behind it. -/
def cutColons : List Char → Option (List Char × List Char)
  | ':' :: ':' :: rest => some ([], rest)
  | c :: rest => (cutColons rest).map fun p => (c :: p.1, p.2)
  | [] => none

/-- The eight pieces that a text spells; a pair of colons stands for one or more zeros. -/
def ipv6? (s : List Char) : Option (List Nat) :=
  match cutColons s with
  | none => do
    let ps ← somePieces? s
    if ps.length = 8 then some ps else none
  | some (front, back) => do
    let front ← if front = [] then some [] else (Text.fields ':' front).mapM piece?
    let back ← somePieces? back
    if front.length + back.length ≤ 7 then
      some (front ++ List.replicate (8 - front.length - back.length) 0 ++ back)
    else none

/-! ### Reading hosts -/

/-- A host in square brackets. -/
def Host.ofBrackets (s : List Char) : Except Fault Host :=
  match s.getLast? with
  | some ']' =>
    match ipv6? s.dropLast with
    | some ps => .ok (.ipv6 ps)
    | none => .error .badIpv6
  | _ => .error .badIpv6

/-- The host that a domain in ASCII stands for: the number that it spells, if it has to be read as
one. -/
def Host.ofDomain (name : List Char) : Except Fault Host :=
  if endsInNumber name then
    match ipv4? name with
    | some n => .ok (.ipv4 n)
    | none => .error .badIpv4
  else .ok (.domain name)

/-- A host of a special scheme. -/
def Host.parse [Domain.Rules] (s : List Char) : Except Fault Host :=
  match s with
  | '[' :: rest => Host.ofBrackets rest
  | s =>
    match (Utf8.decode? (decodedBytes (Utf8.encode (String.ofList s)))).bind fun d =>
      Domain.Rules.ascii? d.toList with
    | none => .error .badDomain
    | some [] => .error .emptyHost
    | some name => Host.ofDomain name

/-- Whether no host at all may hold the character. -/
def isForbiddenInHost (c : Char) : Bool :=
  c ∈ ['\x00', '\t', '\n', '\r', ' ', '#', '/', ':', '<', '>', '?', '@', '[', '\\', ']', '^', '|']

/-- A host of a scheme that is not special. -/
def Host.parseLoose (s : List Char) : Except Fault Host :=
  match s with
  | '[' :: rest => Host.ofBrackets rest
  | s =>
    if s.any isForbiddenInHost then .error .badCharacter
    else .ok (.domain (encoded (fun c => c.toNat < 0x7F && 0x20 ≤ c.toNat) s))

end Url

end PackageStaging
