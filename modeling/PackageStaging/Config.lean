/-
# Configuration

Which server is used, where the state is kept and how long an answer may take.  A setting comes
from the command line, else from the environment, else from the configuration file, else it has
a default.
-/
import PackageStaging.Config.File
import PackageStaging.Program

namespace PackageStaging

/-- What the command line says about the configuration. -/
structure Config.Overrides where
  /-- The configuration file, which has to be there. -/
  file : Option Path
  /-- The address of the server. -/
  serverUrl : Option String
deriving DecidableEq, Repr

/-- Why there is no configuration. -/
inductive Config.Fault where
  /-- The file cannot be read. -/
  | unreadable (file : Path) (reason : String)
  /-- The file is not well formed, or an entry cannot be used. -/
  | malformed (complaint : Option Config.Complaint)
  /-- The address of the server is no address. -/
  | badUrl (fault : Url.Fault)
  /-- The address of the server is one that no others can be relative to. -/
  | notABase (given : String)
deriving DecidableEq, Repr

/-- The wording of a fault. -/
def Config.Fault.message : Config.Fault → String
  | .unreadable p reason => "cannot read " ++ p.display ++ ": " ++ reason
  | .malformed _ => "TOML parse error"
  | .badUrl f => "invalid server URL: " ++ f.message
  | .notABase given => "not a base URL: " ++ given

/-- What is wrong with an entry of the file, in words. -/
def Config.Fault.detail? : Config.Fault → Option String
  | .malformed (some c) => some c.message
  | _ => none

/-- A configuration. -/
structure Config where
  /-- The address of the server; its path ends with `/`. -/
  serverUrl : Url
  /-- The directory for the state. -/
  stateDirectory : Path
  /-- The seconds after which a request is given up, uploads apart. -/
  timeout : Nat
deriving DecidableEq, Repr

namespace Config

/-- The server that is used if none is given. -/
def defaultServer : String := "http://localhost:8080/"

/-- The seconds after which a request is given up if nothing else is given. -/
def defaultTimeout : Nat := 30

/-- The name of the program's own directories. -/
def directoryName : String := "bxt-stage"

/-- The address of the server that a text gives, as that of a directory. -/
def readServerUrl [Url.Domain.Rules] (given : String) : Except Fault Url :=
  match Url.parse (Text.trim given) with
  | .error f => .error (.badUrl f)
  | .ok u => if u.isBase then .ok u.asDirectory else .error (.notABase given)

/-! ### Directories -/

/-- The home directory, if the environment names one. -/
def home? : Program (Option Path) := do
  match ← Program.ask (.environment "HOME") with
  | some h => return if h = "" then none else some (.ofString h)
  | none => return none

/-- The directory that a variable names if it holds an absolute path, else one below the home
directory. -/
def directoryOf? (name : String) (below : String) : Program (Option Path) := do
  match (← Program.ask (.environment name)).map Path.ofString with
  | some p => if p.isAbsolute then return some p else inHome
  | none => inHome
where
  /-- The directory below the home directory. -/
  inHome : Program (Option Path) := do
    return (← home?).map fun h => h.entry below

/-- Where the configuration file is if nothing is said about it. -/
def defaultFile? : Program (Option Path) := do
  return (← directoryOf? "XDG_CONFIG_HOME" ".config").map fun d =>
    (d.entry directoryName).entry "config.toml"

/-- Where the state is kept if nothing is said about it. -/
def defaultStateDirectory : Program Path := do
  let base ← directoryOf? "XDG_DATA_HOME" ".local/share"
  return (base.getD (.ofString ".")).entry directoryName

/-- The path with the home directory in place of `~` at its front. -/
def expanded (p : Path) : Program Path := do
  match p.stripFirst? (Utf8.encode "~") with
  | none => return p
  | some rest =>
    match ← home? with
    | some h => return h.join rest
    | none => return p

/-! ### Loading -/

/-- The settings in the text of a file. -/
def settingsOf (text : String) : Except Fault Settings :=
  match Toml.parse text with
  | none => .error (.malformed none)
  | some t => (Settings.ofTable t).mapError fun c => .malformed (some c)

/-- The settings in a file. -/
def readFile (p : Path) : Program (Except Fault Settings) := do
  match ← Program.ask (.readFile p) with
  | .error f => return .error (.unreadable p f.message)
  | .ok content =>
    match Utf8.decode? content with
    | none => return .error (.unreadable p "stream did not contain valid UTF-8")
    | some text => return settingsOf text

/-- The settings in the file that the command line gives, or else in the default one if that is
there. -/
def readSettings (o : Overrides) : Program (Except Fault Settings) := do
  match o.file with
  | some p => readFile p
  | none =>
    match ← defaultFile? with
    | none => return .ok .none
    | some p =>
      match ← Program.ask (.size p) with
      | .ok _ => readFile p
      | .error _ => return .ok .none

/-- The configuration. -/
def load [Url.Domain.Rules] (o : Overrides) : Program (Except Fault Config) := do
  match ← readSettings o with
  | .error f => return .error f
  | .ok s =>
    let inEnvironment ← Program.ask (.environment "BXT_URL")
    let given := ((o.serverUrl.or inEnvironment).or s.serverUrl).getD defaultServer
    let directory ← Program.ask (.environment "BXT_STATE_DIR")
    let stateDirectory ← match directory.or s.stateDirectory with
      | some d => expanded (.ofString d)
      | none => defaultStateDirectory
    match readServerUrl given with
    | .error f => return .error f
    | .ok serverUrl => return .ok ⟨serverUrl, stateDirectory, s.timeout.getD defaultTimeout⟩

end Config

end PackageStaging
