/-
# Commands on the staging area

Staging, unstaging, clearing and showing.  A command that stages something first checks its
sections against those of the server, if there is a session.  Each command that changes the
staging area loads it once and saves it once; if it fails before, nothing is saved.
-/
import PackageStaging.CommandLine.Report
import PackageStaging.Connection
import PackageStaging.Grouping
import PackageStaging.Listing

namespace PackageStaging.CommandLine

/-- The section that a word names; all three fields have to be there. -/
def readSection (given : String) : Except Error SectionAddress :=
  let s := SectionAddress.ofString given
  if s.isComplete then .ok s else .error (.incompleteSection given)

/-- The state directory of a configuration. -/
def openState (c : Config) : Attempt StateDirectory := StateDirectory.opened c.stateDirectory

/-- Checks that the server has some sections, if there is a session. -/
def checkSections (c : Config) (d : StateDirectory) (sections : List SectionAddress) :
    Attempt Unit := do
  match ← Attempt.outcome (Connection.opened c d) with
  | .error .notLoggedIn => complain "Not logged in, sections not checked"
  | .error e => Attempt.fail e
  | .ok connection =>
    let listing ← connection.client.sections
    connection.keepSession d
    Attempt.ofExcept (sections.forM (Listing.requireSection listing))

/-! ### Staging -/

/-- Stages a batch in a section of the staging area. -/
def stageBatch (d : StateDirectory) (s : SectionAddress) (b : Batch) : Attempt Unit := do
  let area ← d.loadArea
  let (staged, rerouted) ← Attempt.ofExcept (area.restage s b)
  rerouted.forM fun r => say (reroutingLine r)
  d.saveArea staged
  say (doneLine (stagedText s b))

/-- The paths of files from the root on; all of them have to be files. -/
def locateFiles : List Path → Attempt (List Path)
  | [] => pure []
  | p :: ps => do
    if !(← Attempt.ask (.isFile p)) then Attempt.fail (.io (.noSuchFile p))
    let here ← Attempt.ask .workingDirectory
    return Path.absolute here p :: (← locateFiles ps)

/-- Stages files for upload into a section. -/
def runAdd (c : Config) (origin : String) (files : List Path) : Attempt Unit := do
  let s ← Attempt.ofExcept (readSection origin)
  let paths ← locateFiles files
  let d ← openState c
  checkSections c d [s]
  let uploads := groupFiles s paths
  uploads.entries.forM fun e => say (groupedLine e.2)
  stageBatch d s (.add uploads)

/-- Stages the deletion of packages of a section. -/
def runDelete (c : Config) (origin : String) (names : List String) : Attempt Unit := do
  let s ← Attempt.ofExcept (readSection origin)
  let d ← openState c
  checkSections c d [s]
  stageBatch d s (.delete names)

/-- Stages operations that have a target. -/
def runTransfer (c : Config) (origin target : String) (batch : SectionAddress → Batch) :
    Attempt Unit := do
  let s ← Attempt.ofExcept (readSection origin)
  let t ← Attempt.ofExcept (readSection target)
  let d ← openState c
  checkSections c d [s, t]
  stageBatch d s (batch t)

/-! ### Unstaging -/

/-- Takes packages, or all of a section, out of the staging area. -/
def runUnstage (c : Config) (origin : String) (names : List String) : Attempt Unit := do
  let s ← Attempt.ofExcept (readSection origin)
  let d ← openState c
  let area ← d.loadArea
  let left ← Attempt.ofExcept
    (if names = [] then area.unstageSection s else area.unstageAll s names)
  say (doneLine (unstagedText s names))
  d.saveArea left

/-- Empties the staging area. -/
def runClear (c : Config) : Attempt Unit := do
  let d ← openState c
  let area ← d.loadArea
  d.saveArea .empty
  say (doneLine (clearedText area.size))

/-! ### Showing -/

/-- Shows what is staged. -/
def runStatus (c : Config) : Attempt Unit := do
  let d ← openState c
  let area ← d.loadArea
  (areaLines area).forM say

end PackageStaging.CommandLine
