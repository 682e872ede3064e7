/-
# Reading a command line

A command line is options, a verb, and then more options and the operands of the verb in any
order; after the word `--` nothing is an option.  It is read from its front, and the first thing
that cannot stand where it stands, or that asks for help, ends the reading.
-/
import PackageStaging.CommandLine.Verb
import PackageStaging.Config
import PackageStaging.Wire.Messages

namespace PackageStaging.CommandLine

/-- What the program is asked to do. -/
inductive Command where
  | login (user : Option String)
  | logout
  | sections
  | add (origin : String) (files : List Path)
  | delete (origin : String) (names : List String)
  | copy (origin target : String) (names : List String)
  | move (origin target : String) (names : List String)
  | status
  /-- Without names all of the section is meant. -/
  | unstage (origin : String) (names : List String)
  | clear
  | push
  | sync
  | snap (what : SnapRequest)
deriving DecidableEq, Repr

/-- A command, and the options that hold for all commands. -/
structure Invocation where
  command : Command
  overrides : Config.Overrides
  /-- Whether more diagnosis is wanted; the commands have none beyond their errors. -/
  isVerbose : Bool
deriving DecidableEq, Repr

/-- Why there is no command to carry out. -/
inductive Stop where
  /-- The line makes no sense. -/
  | misuse
  /-- Help is wanted, on one command or on all. -/
  | help (on : Option Verb)
  /-- The version is wanted. -/
  | version
deriving DecidableEq, Repr

/-! ### Words -/

/-- What a word is by its looks. -/
inductive Look where
  /-- The word after which nothing is an option. -/
  | separator
  /-- An option by its long name, perhaps with a value. -/
  | long (name : Bytes) (value : Option Bytes)
  /-- Options by their letters. -/
  | short (letters : Bytes)
  /-- Anything else. -/
  | plain
deriving DecidableEq, Repr

/-- The byte of a hyphen. -/
def hyphen : UInt8 := 0x2D

/-- The byte of an equals sign. -/
def equals : UInt8 := 0x3D

/-- What a word is by its looks; a hyphen alone is no option. -/
def Look.ofWord : Bytes → Look
  | [] => .plain
  | b :: rest =>
    if b ≠ hyphen then .plain
    else match rest with
      | [] => .plain
      | c :: name =>
        if c ≠ hyphen then .short (c :: name)
        else if name = [] then .separator
        else
          let value := name.dropWhile (· ≠ equals)
          .long (name.takeWhile (· ≠ equals)) (if value = [] then none else some value.tail)

/-! ### Options and operands at one place -/

/-- What has been read at the front of a line, or behind its verb. -/
structure Reading where
  url : Option String := none
  config : Option Path := none
  user : Option String := none
  isVerbose : Bool := false
  /-- The operands. -/
  words : List Bytes := []
deriving DecidableEq, Repr

namespace Reading

/-- Takes down an option with its value.  None may be given twice, and a path is not empty. -/
def setValue (r : Reading) (s : Switch) (value : Bytes) : Except Stop Reading :=
  match s, Utf8.decode? value with
  | .url, some text => if r.url.isSome then .error .misuse else .ok { r with url := text }
  | .user, some text => if r.user.isSome then .error .misuse else .ok { r with user := text }
  | .config, _ =>
    if r.config.isSome ∨ value = [] then .error .misuse else .ok { r with config := some ⟨value⟩ }
  | _, _ => .error .misuse

/-- Takes down an option without a value. -/
def setFlag (place : Option Verb) (r : Reading) : Switch → Except Stop Reading
  | .verbose => if r.isVerbose then .error .misuse else .ok { r with isVerbose := true }
  | .help => .error (.help place)
  | .version => .error .version
  | _ => .error .misuse

/-- Takes down the options of some letters. -/
def setLetters (place : Option Verb) (r : Reading) : Bytes → Except Stop Reading
  | [] => .ok r
  | letter :: letters =>
    match Switch.ofLetter? place letter with
    | none => .error .misuse
    | some s => do
      let r ← r.setFlag place s
      r.setLetters place letters

/-- Takes down an operand, if there is room for it. -/
def addWord (v : Verb) (r : Reading) (w : Bytes) : Except Stop Reading :=
  match v.operand? r.words.length with
  | none => .error .misuse
  | some o => if o.accepts w then .ok { r with words := r.words ++ [w] } else .error .misuse

/-- Reads options and operands.  At the front of the line this ends at the first word that is no
option; the words from there on are given back. -/
def scan (place : Option Verb) (r : Reading) : List Bytes → Except Stop (Reading × List Bytes)
  | [] => .ok (r, [])
  | w :: rest =>
    match Look.ofWord w with
    | .separator =>
      match place with
      | none => if rest = [] then .ok (r, []) else .error .misuse
      | some v => return (← rest.foldlM (addWord v) r, [])
    | .short letters => do
      let r ← r.setLetters place letters
      r.scan place rest
    | .long name value =>
      match Switch.ofName? place name with
      | none => .error .misuse
      | some s =>
        match s.value?.isSome, value, rest with
        | true, some value, rest => do
          let r ← r.setValue s value
          r.scan place rest
        | true, none, value :: rest =>
          if Look.ofWord value = .plain then do
            let r ← r.setValue s value
            r.scan place rest
          else .error .misuse
        | true, none, [] => .error .misuse
        | false, some _, _ => .error .misuse
        | false, none, rest => do
          let r ← r.setFlag place s
          r.scan place rest
    | .plain =>
      match place with
      | none => .ok (r, w :: rest)
      | some v => do
        let r ← r.addWord v w
        r.scan place rest

end Reading

/-! ### Commands -/

/-- The command of a verb with its operands, unless some are missing. -/
def Command.ofWords? (v : Verb) (user : Option String) (words : List Bytes) : Option Command :=
  let text := Utf8.decode?
  match v, words with
  | .login, [] => some (.login user)
  | .logout, [] => some .logout
  | .sections, [] => some .sections
  | .add, origin :: file :: files => do
    return .add (← text origin) ((file :: files).map Path.mk)
  | .delete, origin :: name :: names => do
    return .delete (← text origin) (← (name :: names).mapM text)
  | .copy, origin :: target :: name :: names => do
    return .copy (← text origin) (← text target) (← (name :: names).mapM text)
  | .move, origin :: target :: name :: names => do
    return .move (← text origin) (← text target) (← (name :: names).mapM text)
  | .status, [] => some .status
  | .unstage, origin :: names => do return .unstage (← text origin) (← names.mapM text)
  | .clear, [] => some .clear
  | .push, [] => some .push
  | .sync, [] => some .sync
  | .snap, [source, target, architecture] => do
    return .snap ⟨← text source, ← text target, ← text architecture⟩
  | _, _ => none

/-- The word that asks for help in place of a verb. -/
def helpWord : Bytes := Utf8.encode "help"

/-- The help that the words after `help` ask for. -/
def helpOn : List Bytes → Stop
  | [] => .help none
  | [w] =>
    if w = helpWord then .help none
    else match Verb.ofWord? w with
      | some v => .help v
      | none => .misuse
  | _ => .misuse

/-- What a command line asks for.  An option behind the verb goes before the same one at the
front. -/
def Invocation.ofWords (words : List Bytes) : Except Stop Invocation := do
  let (front, rest) ← Reading.scan none {} words
  match rest with
  | [] => throw .misuse
  | w :: rest =>
    if w = helpWord then throw (helpOn rest)
    match Verb.ofWord? w with
    | none => throw .misuse
    | some v =>
      let (behind, _) ← Reading.scan (some v) {} rest
      match Command.ofWords? v behind.user behind.words with
      | none => throw .misuse
      | some command =>
        return ⟨command, ⟨behind.config.or front.config, behind.url.or front.url⟩,
          front.isVerbose || behind.isVerbose⟩

end PackageStaging.CommandLine
