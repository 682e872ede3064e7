/-
# Typed readers of JSON

A reader takes a value of a known type from the front of a source.  Readers are put together
from the words of a document: lists (`list`), objects that are maps (`namedValues`), and records
(`Record.read`), which may be written as an object or as the list of their members.  Loops over
the members of a list or an object carry a bound; the length of the source is always enough,
because each member takes at least one unit.
-/
import PackageStaging.Json.Lexeme

namespace PackageStaging.Json

/-! ### Values that nobody wants -/

/-- A list or an object that is open. -/
inductive Frame where
  | list
  | object
deriving DecidableEq, Repr

/-- The fault of a document that ends inside a list or an object. -/
def Frame.unfinished : Frame → Flaw
  | .list => .unfinishedList
  | .object => .unfinishedObject

/-- The fault of a member that nothing separates from the one before it. -/
def Frame.unseparated : Frame → Flaw
  | .list => .wantsCommaOrBracket
  | .object => .wantsCommaOrBrace

/-- The unit that closes it. -/
def Frame.closing : Frame → Char
  | .list => ']'
  | .object => '\x7d'

/-- Passes over the key of a member and the colon behind it, as far as the kind of the frame
asks for them. -/
def skipKey (f : Frame) (s : Source) : Except Snag Source :=
  match f with
  | .list => .ok s
  | .object =>
    match skipSpace s with
    | [] => flawedAhead .unfinishedObject []
    | u :: rest =>
      if u = some '"' then
        match skipStringTail rest with
        | .error e => .error e
        | .ok s =>
          match skipSpace s with
          | [] => flawedAhead .unfinishedObject []
          | v :: rest => if v = some ':' then .ok rest else flawedAhead .wantsColon (v :: rest)
      else flawedAhead .wantsKey (u :: rest)

mutual

/-- Passes over a value of any kind and over the rest of the frames that are open around it. -/
def skipValue : Nat → List Frame → Source → Except Snag Source
  | 0, _, _ => flawedAhead .unfinishedValue []
  | fuel + 1, open', s =>
    match skipSpace s with
    | [] => flawedAhead .unfinishedValue []
    | u :: rest =>
      let scalar (after : Except Snag Source) : Except Snag Source :=
        match after with
        | .error e => .error e
        | .ok s => skipMembers fuel true open' s
      if u = some 'n' then scalar (keyword ['u', 'l', 'l'] rest)
      else if u = some 't' then scalar (keyword ['r', 'u', 'e'] rest)
      else if u = some 'f' then scalar (keyword ['a', 'l', 's', 'e'] rest)
      else if u = some '-' then scalar (skipNumber rest)
      else if isDigit u then scalar (skipNumber (u :: rest))
      else if u = some '"' then scalar (skipStringTail rest)
      else if u = some '[' then skipMembers fuel false (.list :: open') rest
      else if u = some '\x7b' then skipMembers fuel false (.object :: open') rest
      else flawedAhead .wantsValue (u :: rest)

/-- Passes over the rest of the frames that are open; `between` says that a member has just
ended, so that a comma may follow. -/
def skipMembers : Nat → Bool → List Frame → Source → Except Snag Source
  | _, _, [], s => .ok s
  | 0, _, f :: _, _ => flawedAhead f.unfinished []
  | fuel + 1, between, f :: open', s =>
    match skipSpace s with
    | [] => flawedAhead f.unfinished []
    | u :: rest =>
      if between ∧ u = some ',' then
        match skipKey f rest with
        | .error e => .error e
        | .ok s => skipValue fuel (f :: open') s
      else if u = some f.closing then skipMembers fuel true open' rest
      else if between then flawedAhead f.unseparated (u :: rest)
      else
        match skipKey f (u :: rest) with
        | .error e => .error e
        | .ok s => skipValue fuel (f :: open') s

end

/-- Passes over one value. -/
def skipAny (s : Source) : Except Snag Source := skipValue (2 * s.length + 2) [] s

/-! ### Values of one type -/

/-- The fault of a value that is not of the wanted type.  Words are read to their end, of lists
and objects only the opening is looked at. -/
def wrongType {α : Type} (wanted : String) (s : Source) : Except Snag α :=
  let complain (found : Found) (rest : Source) : Except Snag α :=
    mismatched (.wrongType found wanted) rest
  match s with
  | [] => flawedAhead .wantsValue []
  | u :: rest =>
    if u = some 'n' then do complain .null (← keyword ['u', 'l', 'l'] rest)
    else if u = some 't' then do complain (.boolean true) (← keyword ['r', 'u', 'e'] rest)
    else if u = some 'f' then do complain (.boolean false) (← keyword ['a', 'l', 's', 'e'] rest)
    else if u = some '-' then do
      let (n, rest) ← unsignedNumber true rest
      complain n rest
    else if isDigit u then do
      let (n, rest) ← unsignedNumber false (u :: rest)
      complain n rest
    else if u = some '"' then do
      let (t, rest) ← stringTail [] true rest
      complain (.text t) rest
    else if u = some '[' then complain .list s
    else if u = some '\x7b' then complain .object s
    else flawedAhead .wantsValue s

/-- The source from the next value on. -/
def nextValue (s : Source) : Except Snag Source :=
  match skipSpace s with
  | [] => flawedAhead .unfinishedValue []
  | s => .ok s

/-- A string; `wanted` is what the message calls it. -/
def stringAs (wanted : String) : Reader String := fun s => do
  match ← nextValue s with
  | some '"' :: rest => stringTail [] true rest
  | s => wrongType wanted s

/-- A string. -/
def string : Reader String := stringAs "a string"

/-- A truth value. -/
def boolean : Reader Bool := fun s => do
  match ← nextValue s with
  | some 't' :: rest => return (true, ← keyword ['r', 'u', 'e'] rest)
  | some 'f' :: rest => return (false, ← keyword ['a', 'l', 's', 'e'] rest)
  | s => wrongType "a boolean" s

/-- The word `null`, where nothing else may stand. -/
def unit : Reader Unit := fun s => do
  match ← nextValue s with
  | some 'n' :: rest => return ((), ← keyword ['u', 'l', 'l'] rest)
  | s => wrongType "unit" s

/-- A value, or `null` for none. -/
def nullable {α : Type} (value : Reader α) : Reader (Option α) := fun s => do
  match skipSpace s with
  | some 'n' :: rest => return (none, ← keyword ['u', 'l', 'l'] rest)
  | s =>
    let (v, rest) ← value s
    return (some v, rest)

/-- A value that is made from another one, or refused for a reason. -/
def checked {α β : Type} (value : Reader α) (check : α → Except String β) : Reader β := fun s => do
  let (v, rest) ← value s
  match check v with
  | .ok w => return (w, rest)
  | .error reason => mismatched (.refused reason) rest

/-! ### Lists -/

/-- The source from the next element of a list on, or none at the bracket that closes it. -/
def nextElement (first : Bool) (s : Source) : Except Snag (Option Source) :=
  match skipSpace s with
  | [] => flawedAhead .unfinishedList []
  | u :: rest =>
    if u = some ']' then .ok none
    else if first then .ok (some (u :: rest))
    else if u = some ',' then
      match skipSpace rest with
      | [] => flawedAhead .unfinishedValue []
      | v :: rest =>
        if v = some ']' then flawedAhead .trailingComma (v :: rest) else .ok (some (v :: rest))
    else flawedAhead .wantsCommaOrBracket (u :: rest)

/-- Passes over the bracket that closes a list. -/
def endList (s : Source) : Except Snag Source :=
  match skipSpace s with
  | [] => flawedAhead .unfinishedList []
  | u :: rest =>
    if u = some ']' then .ok rest
    else if u = some ',' then
      match skipSpace rest with
      | some ']' :: _ => flawedAhead .trailingComma (skipSpace rest)
      | s => flawedAhead .trailingText s
    else flawedAhead .trailingText (u :: rest)

/-- The elements of a list up to the bracket that closes it; `read` are those before, the last
one first. -/
def elements {α : Type} (element : Reader α) :
    Nat → Bool → List α → Source → Except Snag (List α × Source)
  | 0, _, _, _ => flawedAhead .unfinishedList []
  | fuel + 1, first, read, s => do
    match ← nextElement first s with
    | none => return (read.reverse, ← endList s)
    | some s =>
      let (a, s) ← element s
      elements element fuel false (a :: read) s

/-- A list of values of one type. -/
def list {α : Type} (element : Reader α) : Reader (List α) := fun s => do
  match ← nextValue s with
  | some '[' :: rest => elements element (rest.length + 1) true [] rest
  | s => wrongType "a sequence" s

/-! ### Objects -/

/-- The source behind the opening quote of the next key of an object, or none at the brace that
closes it. -/
def nextKey (first : Bool) (s : Source) : Except Snag (Option Source) :=
  match skipSpace s with
  | [] => flawedAhead .unfinishedObject []
  | u :: rest =>
    if u = some '\x7d' then .ok none
    else if first then
      if u = some '"' then .ok (some rest) else flawedAhead .wantsKey (u :: rest)
    else if u = some ',' then
      match skipSpace rest with
      | [] => flawedAhead .unfinishedValue []
      | v :: rest =>
        if v = some '"' then .ok (some rest)
        else if v = some '\x7d' then flawedAhead .trailingComma (v :: rest)
        else flawedAhead .wantsKey (v :: rest)
    else flawedAhead .wantsCommaOrBrace (u :: rest)

/-- Passes over the colon behind a key. -/
def colon (s : Source) : Except Snag Source :=
  match skipSpace s with
  | [] => flawedAhead .unfinishedObject []
  | u :: rest => if u = some ':' then .ok rest else flawedAhead .wantsColon (u :: rest)

/-- The source behind the brace that closes an object, if that is what comes next; else the
source from its next word on. -/
def afterBrace (s : Source) : Source :=
  match skipSpace s with
  | some '\x7d' :: rest => rest
  | s => s

/-- The members of an object up to the brace that closes it, each handed to `member` with its key
and with the source behind the key. -/
def members {σ : Type} (member : σ → String → Source → Except Snag (σ × Source)) :
    Nat → Bool → σ → Source → Except Snag (σ × Source)
  | 0, _, _, _ => flawedAhead .unfinishedObject []
  | fuel + 1, first, state, s => do
    match ← nextKey first s with
    | none => return (state, afterBrace s)
    | some s =>
      let (key, s) ← stringTail [] true s
      let (state, s) ← member state key s
      members member fuel false state s

/-- An object as the list of its members in order; `wanted` is what the message calls it. -/
def namedValues {α : Type} (value : Reader α) : Reader (List (String × α)) := fun s => do
  match ← nextValue s with
  | some '\x7b' :: rest =>
    let (read, rest) ← members (fun read key s => do
        let (v, s) ← value (← colon s)
        return ((key, v) :: read, s)) (rest.length + 1) true [] rest
    return (read.reverse, rest)
  | s => wrongType "a map" s

/-! ### Records -/

/-- A member of a record whose members are collected in a `σ`. -/
structure Member (σ : Type) where
  /-- Its key in an object. -/
  key : String
  /-- Whether it has been read. -/
  present : σ → Bool
  /-- Reads its value. -/
  read : σ → Reader σ
  /-- Whether it may be left off at the end of a list. -/
  mayEnd : Bool

/-- A record: its members in order, and the value that is made from them. -/
structure Record (σ α : Type) where
  /-- What the message calls it. -/
  wanted : String
  /-- Its members. -/
  members : List (Member σ)
  /-- The collection before anything is read. -/
  blank : σ
  /-- The value of the members that were read; members that are missing are reported. -/
  finish : σ → Except Mismatch α

/-- What the message calls a record of this name. -/
def structName (name : String) : String := "struct " ++ name

/-- What the message calls a record that was written as a list. -/
def Record.wantedAsList {σ α : Type} (r : Record σ α) : String :=
  let n := r.members.length
  r.wanted ++ " with " ++ toString n ++ (if n = 1 then " element" else " elements")

/-- Takes in one member of an object: a known key at most once, other keys without a look at
their values. -/
def Record.takeMember {σ α : Type} (r : Record σ α) (state : σ) (key : String) (s : Source) :
    Except Snag (σ × Source) :=
  match r.members.find? fun m => m.key = key with
  | none => do
    let s ← skipAny (← colon s)
    return (state, s)
  | some m =>
    if m.present state then mismatched (.repeated key) (afterBrace s)
    else do m.read state (← colon s)

/-- Takes in the members that are written as a list, from the one at `index` on. -/
def Record.takeElements {σ α : Type} (r : Record σ α) :
    List (Member σ) → Nat → σ → Source → Except Snag (σ × Source)
  | [], _, state, s => do return (state, ← endList s)
  | m :: ms, index, state, s => do
    match ← nextElement (index = 0) s with
    | some s =>
      let (state, s) ← m.read state s
      takeElements r ms (index + 1) state s
    | none =>
      if m.mayEnd then takeElements r ms (index + 1) state s
      else do
        let rest ← endList s
        mismatched (.wrongLength index r.wantedAsList) rest

/-- A record, written as an object or as a list. -/
def Record.read {σ α : Type} (r : Record σ α) : Reader α := fun s => do
  let (state, rest) ← match ← nextValue s with
    | some '\x7b' :: rest => Json.members r.takeMember (rest.length + 1) true r.blank rest
    | some '[' :: rest => r.takeElements r.members 0 r.blank rest
    | s => wrongType r.wanted s
  match r.finish state with
  | .ok a => return (a, rest)
  | .error m => mismatched m rest

/-- The value of a member that must be there. -/
def required {α : Type} (key : String) : Option α → Except Mismatch α
  | some a => .ok a
  | none => .error (.missing key)

/-! ### Words of an enumeration -/

/-- One of several words, as a string or as the key of an object whose value is `null`. -/
def oneOf {α : Type} (words : List (String × α)) : Reader α := fun s => do
  let word : Reader α := fun s => do
    let (w, rest) ← stringAs "variant identifier" s
    match words.find? fun e => e.1 = w with
    | some e => return (e.2, rest)
    | none => mismatched (.unknownWord w (words.map (·.1))) rest
  match ← nextValue s with
  | some '"' :: rest => word (some '"' :: rest)
  | some '\x7b' :: rest =>
    let (a, rest) ← word rest
    let ((), rest) ← unit (← colon rest)
    match skipSpace rest with
    | [] => flawed .unfinishedObject []
    | some '\x7d' :: rest => return (a, rest)
    | rest => flawed .wantsValue rest
  | s => flawedAhead .wantsValue s

/-! ### Whole documents -/

/-- The number of bytes of a unit. -/
def unitSize (u : Option Char) : Nat :=
  match u with
  | some c => c.utf8Size
  | none => 1

/-- The place behind the units of a source. -/
def placeAfter (read : Source) : Place :=
  let line := read.reverse.takeWhile (· ≠ some '\n')
  ⟨read.count (some '\n') + 1, line.foldl (fun n u => n + unitSize u) 0⟩

/-- The fault with its place in the document. -/
def Snag.locate (doc : Source) (e : Snag) : Fault :=
  let read := doc.take (doc.length - e.left)
  let place := placeAfter read
  let place : Place :=
    if e.ahead ∧ e.left ≠ 0 then
      if doc[read.length]? = some (some '\n') then ⟨place.line + 1, 0⟩
      else ⟨place.line, place.column + 1⟩
    else place
  ⟨e.cause, some place⟩

/-- The value that a document holds, behind which nothing but space may follow.  The check of the
value comes before that of the text behind it, and a value that is refused has no place. -/
def decodeChecked {α β : Type} (value : Reader α) (check : α → Except String β) (doc : Source) :
    Except Fault β :=
  match value doc with
  | .error e => .error (e.locate doc)
  | .ok (a, rest) =>
    match check a with
    | .error reason => .error ⟨.content (.refused reason), none⟩
    | .ok b =>
      match skipSpace rest with
      | [] => .ok b
      | rest => .error (Snag.locate doc ⟨.form .trailingText, rest.length, true⟩)

/-- The value that a document holds. -/
def decode {α : Type} (value : Reader α) (doc : Source) : Except Fault α :=
  decodeChecked value .ok doc

end PackageStaging.Json
