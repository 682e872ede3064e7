/-
# The parts of a command

A command that works on the staging area first gets ready, then loads the area, decides what to
make of it, saves that and says so.  `Command.perform_eq` puts it together of these parts, so that
one can look at the state directory between any two of them.
-/
import Mathlib.Tactic.Lemma
import Mathlib.Tactic.SplitIfs
import PackageStaging.CommandLine

namespace PackageStaging.CommandLine

/-- What a command does with the staging area. -/
inductive Work where
  | stage (s : SectionAddress) (b : Batch)
  /-- Without names all of the section is meant. -/
  | unstage (s : SectionAddress) (names : List String)
  | clear
  | status
  | push
deriving DecidableEq

/-- What is to be saved, and what is done after that. -/
structure Decision where
  area : StagingArea
  rest : Attempt Unit

/-! ### Before the area is loaded -/

/-- Sections are checked before a batch is staged. -/
def stageOpening (config : Config) (s : SectionAddress) (sections : List SectionAddress)
    (b : Batch) : Attempt (Option (StateDirectory × Work)) := do
  let d ← openState config
  checkSections config d sections
  return some (d, .stage s b)

/-- Everything that a command does before it loads the staging area, and its work on the area. A
command that has no such work is carried out as a whole. -/
def Command.opening (config : Config) : Command → Attempt (Option (StateDirectory × Work))
  | .add origin files => do
    let s ← Attempt.ofExcept (readSection origin)
    let paths ← locateFiles files
    let d ← openState config
    checkSections config d [s]
    let uploads := groupFiles s paths
    uploads.entries.forM fun e => say (groupedLine e.2)
    return some (d, .stage s (.add uploads))
  | .delete origin names => do
    let s ← Attempt.ofExcept (readSection origin)
    stageOpening config s [s] (.delete names)
  | .copy origin target names => do
    let s ← Attempt.ofExcept (readSection origin)
    let t ← Attempt.ofExcept (readSection target)
    stageOpening config s [s, t] (.copy names t)
  | .move origin target names => do
    let s ← Attempt.ofExcept (readSection origin)
    let t ← Attempt.ofExcept (readSection target)
    stageOpening config s [s, t] (.move names t)
  | .unstage origin names => do
    let s ← Attempt.ofExcept (readSection origin)
    return some (← openState config, .unstage s names)
  | .clear => return some (← openState config, .clear)
  | .status => return some (← openState config, .status)
  | .push => return some (← openState config, .push)
  | command => do
    command.perform config
    return none

/-! ### After the area is loaded -/

/-- The area after unstaging, if that is possible. -/
def unstaged (a : StagingArea) (s : SectionAddress) (names : List String) :
    Except Error StagingArea :=
  if names = [] then a.unstageSection s else a.unstageAll s names

/-- What a push does with an area, up to the point where it saves the emptied one. -/
def pushed (config : Config) (d : StateDirectory) (a : StagingArea) :
    Attempt (Option Decision) := do
  let connection ← Connection.opened config d
  let (client, push) ← Push.run showEvent connection.client a
  let renewed : Connection := ⟨client, connection.source⟩
  match push.result? with
  | some (.ok outcome) =>
    return some ⟨push.area, do
      let _ ← Attempt.outcome (renewed.keepSession d)
      say (doneLine (pushedText outcome))
      if outcome.reloadSections then
        let _ ← Attempt.outcome client.sections⟩
  | some (.error e) =>
    let _ ← Attempt.outcome (renewed.keepSession d)
    (adviceOn e).toList.forM complain
    Attempt.fail e
  | none => return none

/-- What the work makes of the area that was loaded, if it is to be saved. -/
def Work.decided (config : Config) (d : StateDirectory) (a : StagingArea) :
    Work → Attempt (Option Decision)
  | .stage s b => do
    let (staged, rerouted) ← Attempt.ofExcept (a.restage s b)
    rerouted.forM fun r => say (reroutingLine r)
    return some ⟨staged, say (doneLine (stagedText s b))⟩
  | .unstage s names => do
    let left ← Attempt.ofExcept (unstaged a s names)
    say (doneLine (unstagedText s names))
    return some ⟨left, pure ()⟩
  | .clear => return some ⟨.empty, say (doneLine (clearedText a.size))⟩
  | .status => do
    (areaLines a).forM say
    return none
  | .push =>
    if a.isEmpty then do
      say nothingStaged
      return none
    else pushed config d a

/-- Saves what was decided, and does the rest. -/
def Decision.carriedOut (d : StateDirectory) : Option Decision → Attempt Unit
  | none => pure ()
  | some decision => do
    d.saveArea decision.area
    decision.rest

/-- The work from the loading of the area on. -/
def Work.perform (config : Config) (d : StateDirectory) (work : Work) : Attempt Unit := do
  let a ← d.loadArea
  Decision.carriedOut d (← work.decided config d a)

/-- Does the work, if there is some. -/
def Work.carriedOut (config : Config) : Option (StateDirectory × Work) → Attempt Unit
  | none => pure ()
  | some (d, work) => work.perform config d

/-! ### The whole command -/

lemma fail_bind {α β : Type} (e : Error) (f : α → Attempt β) :
    Attempt.fail e >>= f = Attempt.fail e := rfl

lemma stageBatch_eq (config : Config) (d : StateDirectory) (s : SectionAddress) (b : Batch) :
    stageBatch d s b = (Work.stage s b).perform config d := by
  simp [stageBatch, Work.perform, Work.decided, Decision.carriedOut]

lemma runPush_eq (config : Config) :
    runPush config = openState config >>= fun d => Work.push.perform config d := by
  refine congrArg _ (funext fun d => congrArg _ (funext fun a => ?_))
  simp only [Work.decided]
  split_ifs with hempty
  · simp [Decision.carriedOut]
  · simp only [pushed, bind_assoc]
    refine congrArg _ (funext fun connection => congrArg _ (funext fun v => ?_))
    cases v.2.result? with
    | none => simp [Decision.carriedOut]
    | some r =>
      cases r with
      | ok outcome => simp [Decision.carriedOut]
      | error e => simp [fail_bind]

/-- A command is its opening and then its work. -/
theorem Command.perform_eq (config : Config) (command : Command) :
    command.perform config = command.opening config >>= Work.carriedOut config := by
  cases command with
  | add origin files => simp [perform, opening, runAdd, stageBatch_eq config, Work.carriedOut]
  | delete origin names =>
    simp [perform, opening, runDelete, stageOpening, stageBatch_eq config, Work.carriedOut]
  | copy origin target names =>
    simp [perform, opening, runTransfer, stageOpening, stageBatch_eq config, Work.carriedOut]
  | move origin target names =>
    simp [perform, opening, runTransfer, stageOpening, stageBatch_eq config, Work.carriedOut]
  | unstage origin names =>
    simp [perform, opening, runUnstage, Work.carriedOut, Work.perform, Work.decided,
      Decision.carriedOut, unstaged]
  | clear =>
    simp [perform, opening, runClear, Work.carriedOut, Work.perform, Work.decided,
      Decision.carriedOut]
  | status =>
    simp [perform, opening, runStatus, Work.carriedOut, Work.perform, Work.decided,
      Decision.carriedOut]
  | push => simp [perform, opening, runPush_eq, Work.carriedOut]
  | _ => simp [opening, Work.carriedOut]

end PackageStaging.CommandLine
