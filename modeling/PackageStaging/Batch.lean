/-
# Batches

A batch asks for one kind of operation on packages of one section.  The last batch wins: a
package that is staged for something else is taken out of that bucket before the batch is merged,
so that `StagingArea.restage` does not meet a name in two buckets.
-/
import PackageStaging.StagingArea

namespace PackageStaging

/-- Operations of one kind. -/
inductive Batch where
  /-- Uploads, each under the name of its package. -/
  | add (uploads : NameMap Upload)
  | delete (names : List String)
  | copy (names : List String) (target : SectionAddress)
  | move (names : List String) (target : SectionAddress)
deriving DecidableEq

namespace Batch

/-- The kind of the operations. -/
def action : Batch → Action
  | .add _ => .add
  | .delete _ => .delete
  | .copy _ _ => .copy
  | .move _ _ => .move

/-- The names of the packages as they were given. -/
def names : Batch → List String
  | .add uploads => uploads.names
  | .delete names | .copy names _ | .move names _ => names

/-- The patch that stages the operations. -/
def patch : Batch → Patch
  | .add uploads => .add uploads
  | .delete names => .delete names
  | .copy names target => .copy names target
  | .move names target => .move names target

end Batch

/-- A package that was staged for something else. -/
structure Rerouting where
  name : String
  /-- What it was staged for. -/
  before : Action
  /-- What it is staged for now. -/
  after : Action
deriving DecidableEq, Repr

namespace StagingArea

/-- What is to be done with a package of a section. -/
def actionOf (a : StagingArea) (s : SectionAddress) (name : String) : Option Action :=
  (a.get? s).bind fun c => c.actionOf name

/-- Takes the packages of these names out of all buckets but one, and tells which were found. -/
def reroute (a : StagingArea) (s : SectionAddress) (action : Action) :
    List String → Except Error (StagingArea × List Rerouting)
  | [] => .ok (a, [])
  | name :: names =>
    match (a.actionOf s name).filter fun b => b ≠ action with
    | none => a.reroute s action names
    | some before => do
      let b ← a.unstage s name
      let (c, later) ← b.reroute s action names
      return (c, ⟨name, before, action⟩ :: later)

/-- Stages a batch in a section, whatever its packages were staged for before. -/
def restage (a : StagingArea) (s : SectionAddress) (b : Batch) :
    Except Error (StagingArea × List Rerouting) := do
  let (cleared, rerouted) ← a.reroute s b.action b.names
  let staged ← cleared.stage s b.patch
  return (staged, rerouted)

/-- Takes packages out of the commit of a section, one after the other; all of them have to be
there. -/
def unstageAll (a : StagingArea) (s : SectionAddress) : List String → Except Error StagingArea
  | [] => .ok a
  | name :: names => do
    let b ← a.unstage s name
    b.unstageAll s names

/-- Takes everything out of the commit of a section; something has to be there. -/
def unstageSection (a : StagingArea) (s : SectionAddress) : Except Error StagingArea :=
  if (a.get? s).isNone then .error (.nothingStagedIn s) else .ok (a.dropCommit s)

end StagingArea

end PackageStaging
