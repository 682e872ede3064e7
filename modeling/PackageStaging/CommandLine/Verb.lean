/-
# Commands and what they take

The words that a command line is made of: verbs, the operands of each verb, and the options that
may stand at the front of the line or behind a verb.
-/
import PackageStaging.Text.Utf8

namespace PackageStaging.CommandLine

/-- What can be asked of the program. -/
inductive Verb where
  | login
  | logout
  | sections
  | add
  | delete
  | copy
  | move
  | status
  | unstage
  | clear
  | push
  | sync
  | snap
deriving DecidableEq, Repr

/-- An option. -/
inductive Switch where
  | url
  | config
  | user
  | verbose
  | help
  | version
deriving DecidableEq, Repr

/-- Something that stands behind a verb and is no option. -/
structure Operand where
  name : String
  about : String
  /-- Whether it is the path of a file, and not a text. -/
  isFile : Bool
  /-- Whether it may stand there more than once; only the last operand may. -/
  isMany : Bool
  isRequired : Bool
deriving DecidableEq, Repr

namespace Verb

/-- All verbs, in the order in which they are explained. -/
def all : List Verb :=
  [.login, .logout, .sections, .add, .delete, .copy, .move, .status, .unstage, .clear, .push, .sync,
    .snap]

/-- The word for a verb. -/
def word : Verb → String
  | .login => "login"
  | .logout => "logout"
  | .sections => "sections"
  | .add => "add"
  | .delete => "delete"
  | .copy => "copy"
  | .move => "move"
  | .status => "status"
  | .unstage => "unstage"
  | .clear => "clear"
  | .push => "push"
  | .sync => "sync"
  | .snap => "snap"

/-- The verb that a word stands for. -/
def ofWord? (w : Bytes) : Option Verb := all.find? fun v => Utf8.encode v.word = w

/-- What a verb does. -/
def about : Verb → String
  | .login => "Log in and store the session"
  | .logout => "Revoke and forget the stored session"
  | .sections => "List sections known to the server"
  | .add => "Stage package files (and their .sig files) for upload"
  | .delete => "Stage packages for deletion"
  | .copy => "Stage a copy of packages into another section"
  | .move => "Stage a move of packages into another section"
  | .status => "Show staged commits"
  | .unstage => "Remove packages, or a whole section, from the staging area"
  | .clear => "Drop every staged commit"
  | .push => "Push staged commits to the server"
  | .sync => "Trigger a sync with upstream repositories"
  | .snap => "Snapshot one branch onto another"

/-- The operand for the section that a command is about. -/
def sectionOperand (about : String) : Operand :=
  ⟨"SECTION", about ++ ", as branch/repository/architecture", false, false, true⟩

/-- The operand for the packages that a command is about. -/
def packagesOperand : Operand := ⟨"NAMES", "Package names", false, true, true⟩

/-- The operands of a verb. -/
def operands : Verb → List Operand
  | .login | .logout | .sections | .status | .clear | .push | .sync => []
  | .add =>
    [sectionOperand "Target section",
      ⟨"FILES", "Package and signature files", true, true, true⟩]
  | .delete => [sectionOperand "Section", packagesOperand]
  | .copy | .move =>
    [⟨"FROM", "Source section", false, false, true⟩, ⟨"TO", "Target section", false, false, true⟩,
      packagesOperand]
  | .unstage =>
    [sectionOperand "Section",
      ⟨"NAMES", "Package names (all of the section if omitted)", false, true, false⟩]
  | .snap =>
    [⟨"SOURCE_BRANCH", "Branch to copy from", false, false, true⟩,
      ⟨"TARGET_BRANCH", "Branch to overwrite", false, false, true⟩,
      ⟨"ARCHITECTURE", "Architecture", false, false, true⟩]

/-- The operand of that number, counted from zero; the last one may go on for ever. -/
def operand? (v : Verb) (i : Nat) : Option Operand :=
  v.operands[i]?.or (v.operands.getLast?.filter fun o => o.isMany)

end Verb

/-- Whether a word can stand for an operand: a path is not empty, a text is one. -/
def Operand.accepts (o : Operand) (w : Bytes) : Bool :=
  if o.isFile then w ≠ [] else (Utf8.decode? w).isSome

namespace Switch

/-- The long name of an option. -/
def name : Switch → String
  | .url => "url"
  | .config => "config"
  | .user => "user"
  | .verbose => "verbose"
  | .help => "help"
  | .version => "version"

/-- The letter of an option. -/
def letter? : Switch → Option Char
  | .verbose => some 'v'
  | .help => some 'h'
  | .version => some 'V'
  | _ => none

/-- What stands for the value of an option that takes one. -/
def value? : Switch → Option String
  | .url => some "URL"
  | .config => some "CONFIG"
  | .user => some "USER"
  | _ => none

/-- What an option does. -/
def about : Switch → String
  | .url => "Server URL (overrides config file and BXT_URL)"
  | .config => "Config file (defaults to ~/.config/bxt-stage/config.toml)"
  | .user => "User name (prompted if omitted)"
  | .verbose => "Verbose logging"
  | .help => "Print help"
  | .version => "Print version"

/-- The options that may stand at the front of a line, or behind a verb. -/
def allowed : Option Verb → List Switch
  | none => [.url, .config, .verbose, .help, .version]
  | some .login => [.user, .url, .config, .verbose, .help]
  | some _ => [.url, .config, .verbose, .help]

/-- The option of a long name. -/
def ofName? (place : Option Verb) (name : Bytes) : Option Switch :=
  (allowed place).find? fun s => Utf8.encode s.name = name

/-- The option of a letter. -/
def ofLetter? (place : Option Verb) (letter : UInt8) : Option Switch :=
  (allowed place).find? fun s => s.letter?.map (fun c => c.toNat) = some letter.toNat

end Switch

end PackageStaging.CommandLine
