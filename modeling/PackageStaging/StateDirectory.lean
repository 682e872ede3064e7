/-
# The state directory

The staging area and the session are kept in two files of one directory.  A file is written under
another name first and then put in its place, so that it is never there in part.  An empty
staging area has no file.
-/
import PackageStaging.Program
import PackageStaging.Wire.Messages
import PackageStaging.Wire.Staged

namespace PackageStaging

/-- The directory that holds the state. -/
structure StateDirectory where
  root : Path
deriving DecidableEq, Repr

/-- Where a session came from. -/
inductive SessionSource where
  /-- From the environment. -/
  | environment
  /-- From the state directory. -/
  | stored
deriving DecidableEq, Repr

namespace StateDirectory

/-- The name of the file for the staging area. -/
def stagedName : String := "staged.json"

/-- The name of the file for the session. -/
def sessionName : String := "session.json"

/-- The name under which a file is written at first. -/
def draftName (name : String) : String := name ++ ".tmp"

/-- The variable of the environment that holds a token. -/
def tokenVariable : String := "BXT_TOKEN"

/-! ### Directories -/

/-- Makes a directory and those on the way to it that are missing, `fuel` of them at most. -/
def makeDirectories : Nat → Path → Program (Except SystemFault Unit)
  | 0, _ => return .error .noSuchEntry
  | fuel + 1, p => do
    if p.bytes = [] then return .ok ()
    match ← Program.ask (.makeDirectory p) with
    | .ok () => return .ok ()
    | .error .noSuchEntry =>
      match p.parent? with
      | none => return .error .noSuchEntry
      | some parent =>
        match ← makeDirectories fuel parent with
        | .error f => return .error f
        | .ok () => orThere p (← Program.ask (.makeDirectory p))
    | .error f => orThere p (.error f)
where
  /-- A refusal does not count if the directory is there. -/
  orThere (p : Path) (r : Except SystemFault Unit) : Program (Except SystemFault Unit) := do
    match r with
    | .ok () => return .ok ()
    | .error f => if ← Program.ask (.isDirectory p) then return .ok () else return .error f

/-- Opens a state directory, which is made if it is not there. -/
def opened (root : Path) : Attempt StateDirectory := do
  Attempt.ofSystem (← ExceptT.lift (makeDirectories (root.bytes.length + 1) root))
  return ⟨root⟩

/-! ### Files -/

/-- The path of a file of the directory. -/
def path (d : StateDirectory) (name : String) : Path := d.root.entry name

/-- The document in a file, if the file is there. -/
def load {α : Type} (d : StateDirectory) (name : String)
    (decode : Json.Source → Except Json.Fault α) : Attempt (Option α) := do
  match ← Attempt.ask (.readFile (d.path name)) with
  | .ok content =>
    return some (← Attempt.ofExcept ((decode (Utf8.source content)).mapError .json))
  | .error .noSuchEntry => return none
  | .error f => Attempt.ofSystem (.error f)

/-- Puts a document into a file. -/
def save (d : StateDirectory) (name : String) (v : Except Json.Fault Json.Value) :
    Attempt Unit := do
  let v ← Attempt.ofExcept (v.mapError .json)
  let draft := d.path (draftName name)
  Attempt.ofSystem (← Attempt.ask (.writeFile draft (Utf8.encode v.prettyText)))
  Attempt.ofSystem (← Attempt.ask (.replaceFile draft (d.path name)))

/-- Removes a file if it is there. -/
def discard (d : StateDirectory) (name : String) : Attempt Unit := do
  match ← Attempt.ask (.removeFile (d.path name)) with
  | .ok () | .error .noSuchEntry => return ()
  | .error f => Attempt.ofSystem (.error f)

/-! ### The state -/

/-- The staging area. -/
def loadArea (d : StateDirectory) : Attempt StagingArea := do
  return (← d.load stagedName Wire.decodeStagingArea).getD .empty

/-- Keeps the staging area. -/
def saveArea (d : StateDirectory) (a : StagingArea) : Attempt Unit :=
  if a.isEmpty then d.discard stagedName else d.save stagedName (Wire.stagingAreaValue a)

/-- The session, if there is one. -/
def loadSession (d : StateDirectory) : Attempt (Option Session) :=
  d.load sessionName (Json.decode Wire.readSession)

/-- Keeps the session. -/
def saveSession (d : StateDirectory) (s : Session) : Attempt Unit :=
  d.save sessionName (.ok (Wire.sessionValue s))

/-- Forgets the session. -/
def clearSession (d : StateDirectory) : Attempt Unit := d.discard sessionName

/-- The session to use: that of the token in the environment, unless it is blank, else the one
that is kept. -/
def authenticate (d : StateDirectory) : Attempt (SessionSource × Session) := do
  match (← Attempt.ask (.environment tokenVariable)).map Text.trim with
  | some token =>
    if token ≠ "" then
      return (.environment, .ofAccessToken token (← Attempt.ask .now))
    else stored
  | none => stored
where
  /-- The session that is kept. -/
  stored : Attempt (SessionSource × Session) := do
    match ← d.loadSession with
    | some s => return (.stored, s)
    | none => Attempt.fail .notLoggedIn

end StateDirectory

end PackageStaging
