/-
# What commands print

The lines that commands print, each in one place.  The output is read by no terminal, so control
sequences in the names of packages and the like are left out of it.
-/
import PackageStaging.Batch
import PackageStaging.Program
import PackageStaging.Push.Stage
import PackageStaging.Text.Plain

namespace PackageStaging.CommandLine

/-- Prints a line. -/
def say (line : String) : Attempt Unit :=
  Attempt.ask (.print .standard (Text.plain (line ++ "\n")))

/-- Prints a line of diagnosis. -/
def complain (line : String) : Attempt Unit :=
  Attempt.ask (.print .diagnostic (Text.plain (line ++ "\n")))

/-- The line that says that something was done. -/
def doneLine (text : String) : String := "✓ " ++ text

/-- The text that says that nothing is staged. -/
def nothingStaged : String := "Nothing staged"

/-- From one place to another one. -/
def fromTo (source target : String) : String := source ++ " → " ++ target

/-! ### Staging -/

/-- The line for a file that is about to be staged. -/
def groupedLine (u : Upload) : String :=
  let note := match u.file, u.signature with
    | some _, some _ => ""
    | some _, none => " (no signature)"
    | none, _ => " (signature only)"
  "  + " ++ u.name ++ note

/-- The line for a package that was staged for something else. -/
def reroutingLine (r : Rerouting) : String :=
  "  ~ " ++ r.name ++ " was staged for " ++ r.before.text ++ ", now " ++ r.after.text

/-- What was staged by a batch. -/
def stagedText (s : SectionAddress) (b : Batch) : String :=
  let count := toString b.names.length
  let transfer (target : SectionAddress) : String :=
    "Staged " ++ b.action.text ++ " of " ++ count ++ " packages: " ++ fromTo s.text target.text
  match b with
  | .add _ => "Staged " ++ count ++ " uploads for " ++ s.text
  | .delete _ => "Staged " ++ count ++ " deletions in " ++ s.text
  | .copy _ target | .move _ target => transfer target

/-- What was unstaged; without names everything was. -/
def unstagedText (s : SectionAddress) (names : List String) : String :=
  if names = [] then "Unstaged everything in " ++ s.text
  else "Unstaged " ++ toString names.length ++ " packages from " ++ s.text

/-- What was cleared. -/
def clearedText (commits : Nat) : String := "Cleared " ++ toString commits ++ " staged commits"

/-! ### The staging area -/

/-- What is noted about a staged upload of which a file is missing. -/
def missingNote? (u : Upload) : Option String :=
  match u.file, u.signature with
  | some _, some _ => none
  | none, some _ => some "missing package file"
  | some _, none => some "missing signature"
  | none, none => some "missing files"

/-- The line for a staged upload. -/
def uploadLine (name : String) (u : Upload) : String :=
  let note := match missingNote? u with
    | some note => " " ++ note
    | none => ""
  "  + " ++ name ++ note

/-- The line at the head of a staged commit. -/
def commitLine (e : StagedCommit) : String :=
  let s := e.commit.summary
  e.key.text ++ " (+" ++ toString s.add ++ " -" ++ toString s.delete ++ " copy " ++ toString s.copy
    ++ " move " ++ toString s.move ++ ")"

/-- The lines for a staged commit. -/
def commitLines (e : StagedCommit) : List String :=
  let transfer (letter : String) (t : String × SectionAddress) : String :=
    "  " ++ letter ++ " " ++ fromTo t.1 t.2.text
  commitLine e :: e.commit.toAdd.entries.map (fun t => uploadLine t.1 t.2)
    ++ e.commit.toDelete.names.map (fun n => "  - " ++ n)
    ++ e.commit.toCopy.entries.map (transfer "c")
    ++ e.commit.toMove.entries.map (transfer "m")
    ++ [""]

/-- The lines for a staging area. -/
def areaLines (a : StagingArea) : List String :=
  if a.isEmpty then [nothingStaged]
  else a.entries.flatMap commitLines
    ++ [toString a.size ++ " sections staged, run bxt-stage push to submit"]

/-! ### Pushes -/

/-- Shows what a push tells.  The refresh, the upload and its fractions are for terminals only. -/
def showEvent : Event → Attempt Unit
  | .phase .encoding => say (Phase.encoding.text ++ "...")
  | .phase .complete => say (doneLine Phase.complete.text)
  | .phase _ | .progress _ => pure ()
  | .message text => say text
  | .failure e => complain ("✗ error: " ++ e.message)

/-- What was pushed. -/
def pushedText (o : PushOutcome) : String :=
  "Pushed " ++ toString o.packages ++ " packages across " ++ toString o.sections ++ " sections"

/-- What is said about a push when the server does not accept the session any more. -/
def sessionExpired : String := "Session expired, run `bxt-stage login` and push again"

/-- What is said about a push of which nobody knows whether it arrived. -/
def maybeApplied : String :=
  "The server may have applied part of the commit; check `bxt-stage sections` before retrying"

end PackageStaging.CommandLine
