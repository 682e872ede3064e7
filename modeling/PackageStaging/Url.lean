/-
# Addresses

An address has a scheme, an authority with credentials, a host and a port, a path, a query and a
fragment.  `Url.parse` reads it from text in the way browsers do and keeps every part in its
final form, so that `Url.text` only puts the parts together.  A path is the list of its
segments: `.` and `..` are gone, and a last segment that is empty stands for a `/` at the end.
-/
import PackageStaging.Text.Blank
import PackageStaging.Url.Host

namespace PackageStaging

/-- What follows `//` in an address. -/
structure Url.Authority where
  /-- The user name, encoded. -/
  username : List Char
  /-- The password, encoded. -/
  password : List Char
  /-- The host. -/
  host : Url.Host
  /-- The port, unless it is the one that the scheme implies. -/
  port : Option Nat
deriving DecidableEq, Repr

/-- What follows the scheme of an address. -/
inductive Url.Path where
  /-- A text without structure. -/
  | unstructured (text : List Char)
  /-- Segments, each behind a `/`. -/
  | segments (ss : List (List Char))
deriving DecidableEq, Repr

/-- An address. -/
structure Url where
  /-- The scheme, in small letters. -/
  scheme : List Char
  /-- The authority, if there is one. -/
  authority : Option Url.Authority
  /-- The path. -/
  path : Url.Path
  /-- The query, encoded. -/
  query : Option (List Char)
  /-- The fragment, encoded. -/
  fragment : Option (List Char)
deriving DecidableEq, Repr

namespace Url

/-! ### Writing -/

/-- The segments of a path, each behind a `/`. -/
def segmentsText (ss : List (List Char)) : List Char := ss.flatMap fun s => '/' :: s

/-- The path as text. -/
def Path.text : Path → List Char
  | .unstructured t => t
  | .segments ss => segmentsText ss

/-- The credentials with the `@` behind them, if there are any. -/
def Authority.credentialsText (a : Authority) : List Char :=
  if a.username = [] ∧ a.password = [] then []
  else a.username ++ (if a.password = [] then [] else ':' :: a.password) ++ ['@']

/-- The host and the port. -/
def Authority.hostText (a : Authority) : List Char :=
  a.host.text ++ (match a.port with
    | some p => ':' :: Nat.toDigits 10 p
    | none => [])

/-- The authority as text. -/
def Authority.text (a : Authority) : List Char := a.credentialsText ++ a.hostText

/-- What stands between the scheme and the path.  Without an authority a path must not look like
one. -/
def introduction (u : Url) : List Char :=
  match u.authority with
  | some a => '/' :: '/' :: a.text
  | none =>
    match u.path with
    | .segments ([] :: _ :: _) => ['/', '.']
    | _ => []

/-- A part behind its mark, if it is there. -/
def marked (mark : Char) : Option (List Char) → List Char
  | some t => mark :: t
  | none => []

/-- The address as text. -/
def chars (u : Url) : List Char :=
  u.scheme ++ ':' :: u.introduction ++ u.path.text ++ marked '?' u.query ++ marked '#' u.fragment

/-- The address as text. -/
def text (u : Url) : String := String.ofList u.chars

instance : ToString Url := ⟨text⟩

/-! ### Schemes -/

/-- The schemes whose addresses always have an authority, each with the port that it implies. -/
def specialPorts : List (List Char × Option Nat) := [
  (['h', 't', 't', 'p'], some 80), (['h', 't', 't', 'p', 's'], some 443),
  (['w', 's'], some 80), (['w', 's', 's'], some 443), (['f', 't', 'p'], some 21),
  (['f', 'i', 'l', 'e'], none)]

/-- Whether the scheme is one of those. -/
def isSpecial (scheme : List Char) : Bool := specialPorts.any fun e => e.1 = scheme

/-- Whether the scheme is the one of local files. -/
def isFile (scheme : List Char) : Bool := scheme = ['f', 'i', 'l', 'e']

/-- The port that the scheme implies. -/
def impliedPort (scheme : List Char) : Option Nat :=
  (specialPorts.find? fun e => e.1 = scheme).bind (·.2)

/-- Whether the character may stand in a scheme. -/
def inScheme (c : Char) : Bool := c.isAlphanum || c = '+' || c = '-' || c = '.'

/-- The scheme in small letters, and the text behind its colon. -/
def cutScheme (s : List Char) : Option (List Char × List Char) :=
  match s with
  | [] => none
  | c :: _ =>
    if !c.isAlpha then none
    else match s.dropWhile inScheme with
      | ':' :: rest => some ((s.takeWhile inScheme).map Char.toLower, rest)
      | _ => none

/-! ### Paths -/

/-- Whether the character separates segments. -/
def isSeparator (special : Bool) (c : Char) : Bool := c = '/' || (special && c = '\\')

/-- Whether the character ends a path. -/
def endsPath (c : Char) : Bool := c = '?' || c = '#'

/-- The segments of a text. -/
def cutSegments (special : Bool) : List Char → List (List Char)
  | [] => [[]]
  | c :: rest =>
    if isSeparator special c then [] :: cutSegments special rest
    else match cutSegments special rest with
      | [] => [[c]]
      | s :: ss => (c :: s) :: ss

/-- A segment with every encoded dot decoded. -/
def plainDots : List Char → List Char
  | '%' :: '2' :: 'e' :: rest => '.' :: plainDots rest
  | '%' :: '2' :: 'E' :: rest => '.' :: plainDots rest
  | c :: rest => c :: plainDots rest
  | [] => []

/-- Whether a segment stands for the one that it is in. -/
def isHere (s : List Char) : Bool := plainDots s = ['.']

/-- Whether a segment stands for the one above. -/
def isAbove (s : List Char) : Bool := plainDots s = ['.', '.']

/-- Whether a segment names a drive. -/
def isDrive (s : List Char) : Bool :=
  match s with
  | [c, d] => c.isAlpha && (d = ':' || d = '|')
  | _ => false

/-- The segments without the last one; the drive of a local file stays. -/
def shortened (file : Bool) (ss : List (List Char)) : List (List Char) :=
  match ss with
  | [s] => if file && isDrive s then ss else []
  | ss => ss.dropLast

/-- The segments with one more; the name of a drive at the front of a local file has a colon. -/
def extended (file : Bool) (ss : List (List Char)) (s : List Char) : List (List Char) :=
  if file && ss = [] && isDrive s then [s.take 1 ++ [':']] else ss ++ [encoded inPath s]

/-- Puts segments behind those of a path, resolving `.` and `..`. -/
def resolved (file : Bool) (ss : List (List Char)) : List (List Char) → List (List Char)
  | [] => ss
  | [s] =>
    if isAbove s then shortened file ss ++ [[]]
    else if isHere s then ss ++ [[]]
    else extended file ss s
  | s :: rest =>
    if isAbove s then resolved file (shortened file ss) rest
    else if isHere s then resolved file ss rest
    else resolved file (extended file ss s) rest

/-- The segments without empty ones at the front, one segment being left. -/
def withoutEmptyFront : List (List Char) → List (List Char)
  | [] :: s :: ss => withoutEmptyFront (s :: ss)
  | ss => ss

/-- The segments of the path that a text spells behind those that are there, without the first
separator. -/
def pathSegments (scheme : List Char) (ss : List (List Char)) (text : List Char) :
    List (List Char) :=
  let file := isFile scheme
  let ss := resolved file ss (cutSegments (isSpecial scheme) text)
  if file then withoutEmptyFront ss else ss

/-- The path behind an authority.  The path of a special scheme is never empty. -/
def pathBehindAuthority (scheme text : List Char) : List (List Char) :=
  match text with
  | [] => if isSpecial scheme then [[]] else []
  | c :: rest =>
    if isSeparator (isSpecial scheme) c then pathSegments scheme [] rest
    else pathSegments scheme [] text

/-! ### Queries and fragments -/

/-- The query and the fragment in a text that begins with one of them. -/
def cutSuffix (scheme s : List Char) : Option (List Char) × Option (List Char) :=
  let keeps := if isSpecial scheme then inSpecialQuery else inQuery
  match s with
  | '?' :: rest =>
    let query := encoded keeps (rest.takeWhile (· ≠ '#'))
    match rest.dropWhile (· ≠ '#') with
    | _ :: fragment => (some query, some (encoded inFragment fragment))
    | [] => (some query, none)
  | '#' :: fragment => (none, some (encoded inFragment fragment))
  | _ => (none, none)

/-! ### Authorities -/

/-- The text before the last `@`, and the text behind it. -/
def cutCredentials (s : List Char) : Option (List Char × List Char) :=
  match s.reverse.dropWhile (· ≠ '@') with
  | _ :: front => some (front.reverse, (s.reverse.takeWhile (· ≠ '@')).reverse)
  | [] => none

/-- The text up to the colon in front of the port, colons between brackets not counted. -/
def hostPart : Bool → List Char → List Char
  | _, [] => []
  | inside, c :: rest =>
    if c = ':' && !inside then []
    else c :: hostPart (if c = '[' then true else if c = ']' then false else inside) rest

/-- The port in the text behind the colon, and the text behind the port. -/
def readPort (scheme s : List Char) : Except Fault (Option Nat × List Char) :=
  let ds := s.takeWhile Char.isDigit
  let rest := s.dropWhile Char.isDigit
  match Text.numberIn 10 ds with
  | none => .error .badPort
  | some n =>
    if 65535 < n then .error .badPort
    else match rest with
      | c :: _ =>
        if c = '\\' then .ok (if ds = [] ∨ impliedPort scheme = some n then none else some n, rest)
        else .error .badPort
      | [] => .ok (if ds = [] ∨ impliedPort scheme = some n then none else some n, [])

/-- The user name and the password, encoded. -/
def readCredentials (s : List Char) : List Char × List Char :=
  let username := s.takeWhile (· ≠ ':')
  (encoded inCredentials username,
    encoded inCredentials ((s.dropWhile (· ≠ ':')).drop 1))

/-- The host and the port in a text, and what is left of the text. -/
def readHost [Domain.Rules] (scheme s : List Char) (behindCredentials : Bool) :
    Except Fault (Host × Option Nat × List Char) :=
  let part := hostPart false s
  if isSpecial scheme ∧ part = [] then .error .emptyHost
  else do
    let host ← if isSpecial scheme then Host.parse part else Host.parseLoose part
    match s.drop part.length with
    | [] =>
      if host = .domain [] ∧ behindCredentials then .error .emptyHost else .ok (host, none, [])
    | _ :: digits =>
      if host = .domain [] then .error .emptyHost
      else do
        let (port, rest) ← readPort scheme digits
        .ok (host, port, rest)

/-- The authority in a text, and what is left of the text. -/
def readAuthority [Domain.Rules] (scheme s : List Char) (more : Bool) :
    Except Fault (Authority × List Char) :=
  let (given, rest) := (cutCredentials s).getD ([], s)
  let (username, password) := readCredentials given
  if (cutCredentials s).isSome ∧ given = [] ∧ rest = [] ∧ more then .error .emptyHost
  else do
    let (host, port, left) ← readHost scheme rest (username ≠ [] || password ≠ [])
    .ok (⟨username, password, host, port⟩, left)

/-- Whether the character ends an authority. -/
def endsAuthority (special : Bool) (c : Char) : Bool :=
  c = '/' || endsPath c || (special && c = '\\')

/-- An address with an authority, from the text behind `//` on. -/
def readHierarchical [Domain.Rules] (scheme s : List Char) : Except Fault Url := do
  let front := s.takeWhile fun c => !endsAuthority (isSpecial scheme) c
  let back := s.dropWhile fun c => !endsAuthority (isSpecial scheme) c
  let (authority, left) ← readAuthority scheme front (back ≠ [])
  let tail := left ++ back
  let path := pathBehindAuthority scheme (tail.takeWhile fun c => !endsPath c)
  let (query, fragment) := cutSuffix scheme (tail.dropWhile fun c => !endsPath c)
  return ⟨scheme, some authority, .segments path, query, fragment⟩

/-- The authority of a local file without a host. -/
def noHost : Authority := ⟨[], [], .domain [], none⟩

/-- The address of a local file, from the text behind the authority on.  There is no host in front
of a drive. -/
def fileBehindAuthority (scheme : List Char) (authority : Authority) (tail : List Char) : Url :=
  let text := tail.takeWhile fun c => !endsPath c
  let (query, fragment) := cutSuffix scheme (tail.dropWhile fun c => !endsPath c)
  let path := match text with
    | c :: rest =>
      pathSegments scheme [] (if isSeparator true c then rest else text)
    | [] => [[]]
  let drive := match path with
    | first :: _ => isDrive first
    | [] => false
  ⟨scheme, some (if drive then noHost else authority), .segments path, query, fragment⟩

/-- The address of a local file, from the text behind the colon on. -/
def readFile [Domain.Rules] (scheme s : List Char) : Except Fault Url := do
  match s with
  | c :: d :: rest =>
    if isSeparator true c ∧ isSeparator true d then
      let part := rest.takeWhile fun c => !endsAuthority true c
      if part = [] ∨ isDrive part then return fileBehindAuthority scheme noHost rest
      let host ← Host.parse part
      let host := if host = .domain "localhost".toList then .domain [] else host
      return fileBehindAuthority scheme ⟨[], [], host, none⟩ (rest.drop part.length)
    else return fileBehindAuthority scheme noHost s
  | s => return fileBehindAuthority scheme noHost s

/-- An address of a scheme that is not special, from the text behind the colon on. -/
def readOther [Domain.Rules] (scheme s : List Char) : Except Fault Url :=
  match s with
  | '/' :: '/' :: rest => readHierarchical scheme rest
  | s =>
    let text := s.takeWhile fun c => !endsPath c
    let (query, fragment) := cutSuffix scheme (s.dropWhile fun c => !endsPath c)
    let path : Path := match text with
      | '/' :: rest => .segments (pathSegments scheme [] rest)
      | text => .unstructured (encoded (fun c => c.toNat < 0x7F && 0x20 ≤ c.toNat) text)
    .ok ⟨scheme, none, path, query, fragment⟩

/-! ### Whole addresses -/

/-- The text without control characters and spaces at its ends, and without tabs and ends of
lines. -/
def cleaned (s : List Char) : List Char :=
  let idle := fun c : Char => c.toNat ≤ 0x20
  ((s.dropWhile idle).reverse.dropWhile idle).reverse.filter fun c =>
    c ≠ '\t' && c ≠ '\n' && c ≠ '\r'

/-- An address of the scheme, from the text behind the colon on. -/
def readBehindScheme [Domain.Rules] (scheme s : List Char) : Except Fault Url :=
  if isFile scheme then readFile scheme s
  else if isSpecial scheme then readHierarchical scheme (s.dropWhile (isSeparator true))
  else readOther scheme s

/-- The address that a text spells. -/
def parse [Domain.Rules] (s : String) : Except Fault Url :=
  match cutScheme (cleaned s.toList) with
  | none => .error .noScheme
  | some (scheme, rest) => readBehindScheme scheme rest

/-- Whether other addresses can be given relative to this one. -/
def isBase (u : Url) : Bool :=
  match u.path with
  | .unstructured _ => false
  | .segments _ => true

/-- The address with the path that a text spells.  No character ends the path here: those that end
one elsewhere are encoded. -/
def withPath (u : Url) (text : List Char) : Url :=
  { u with path := .segments (pathBehindAuthority u.scheme text) }

/-- The address as that of a directory: its path ends with `/`. -/
def asDirectory (u : Url) : Url :=
  match u.path with
  | .unstructured _ => u
  | .segments _ =>
    if u.path.text.getLast? = some '/' then u else u.withPath (u.path.text ++ ['/'])

/-! ### Credentials -/

/-- What is presented to a host: a name, and a password if there is one. -/
structure Credentials where
  name : String
  password : Option String
deriving DecidableEq, Repr

/-- The credentials of an address, decoded.  A name that is no text counts for none, and so does
such a password. -/
def credentials? (u : Url) : Option Credentials := do
  let a ← u.authority
  let name ← Utf8.decode? (decodedBytes (Utf8.encode (String.ofList a.username)))
  let password :=
    if a.password = [] then none
    else Utf8.decode? (decodedBytes (Utf8.encode (String.ofList a.password)))
  if name = "" ∧ password = none then none else some ⟨name, password⟩

/-- The address without credentials. -/
def withoutCredentials (u : Url) : Url :=
  { u with authority := u.authority.map fun a => { a with username := [], password := [] } }

/-- The address to which a request is sent: credentials that can be presented apart from it are not
part of it. -/
def requested (u : Url) : Url := if u.credentials?.isSome then u.withoutCredentials else u

@[simp] theorem path_requested (u : Url) : u.requested.path = u.path := by
  unfold requested
  split <;> rfl

end Url

end PackageStaging
