/-
# Commands that take turns

Several processes carry out commands on one state directory at the same time.  A command is
carried out in blocks (`Process.block`): between any two of them, so before and after the staging
area is loaded and before and after it is saved, it may be the turn of other processes.  The
blocks put together are the command (`Process.left_eq`).  What a block can do is said by
`Progress.Move`, with one constructor for each way in which it can end; `moves_block` says that
blocks do nothing else, and they are not opened again.
-/
import Mathlib.Logic.Function.Basic
import PackageStaging.Proofs.CommandLine.Commands

namespace PackageStaging.CommandLine

open Attempt StateDirectory

/-! ### Processes -/

/-- A command and the configuration with which it is carried out. -/
structure Process where
  command : Command
  config : Config

/-- How far a process has come with its command. -/
inductive Progress where
  | waiting
  /-- The state directory is open, and the staging area is to be loaded. -/
  | ready (d : StateDirectory) (work : Work)
  /-- The staging area is loaded; it had been saved so many times before. -/
  | loaded (d : StateDirectory) (work : Work) (since : Nat) (a : StagingArea)
  /-- What was made of the staging area is to be saved. -/
  | decided (d : StateDirectory) (work : Work) (since : Nat) (a : StagingArea) (decision : Decision)
  /-- What was made of the staging area has been saved. -/
  | saved (rest : Attempt Unit)
  | done
  | failed (e : Error)

namespace Process

/-- What a process does when it is its turn and the staging area has been saved so many times. -/
def block (p : Process) (saves : Nat) : Progress → Attempt Progress
  | .waiting => do
    match ← p.command.opening p.config with
    | some (d, work) => return .ready d work
    | none => return .done
  | .ready d work => return .loaded d work saves (← d.loadArea)
  | .loaded d work since a => do
    match ← work.decided p.config d a with
    | some decision => return .decided d work since a decision
    | none => return .done
  | .decided d _ _ _ decision => do
    d.saveArea decision.area
    return .saved decision.rest
  | .saved rest => do
    rest
    return .done
  | .done => return .done
  | .failed e => return .failed e

/-- What a process still has to do. -/
def left (p : Process) : Progress → Attempt Unit
  | .waiting => p.command.perform p.config
  | .ready d work => work.perform p.config d
  | .loaded d work _ a => work.decided p.config d a >>= Decision.carriedOut d
  | .decided d _ _ _ decision => Decision.carriedOut d (some decision)
  | .saved rest => rest
  | .done => pure ()
  | .failed e => Attempt.fail e

/-- A block is the beginning of what is still to be done. -/
theorem left_eq (p : Process) (saves : Nat) (progress : Progress) :
    p.left progress = p.block saves progress >>= p.left := by
  cases progress with
  | waiting =>
    simp only [left, block, Command.perform_eq, bind_assoc]
    refine congrArg _ (funext fun r => ?_)
    cases r with
    | none => simp [Work.carriedOut, left]
    | some r => simp [Work.carriedOut, left]
  | ready d work => simp [left, block, Work.perform]
  | loaded d work since a =>
    simp only [left, block, bind_assoc]
    refine congrArg _ (funext fun decision? => ?_)
    cases decision? with
    | none => simp [Decision.carriedOut, left]
    | some decision => simp [left]
  | decided d work since a decision => simp [left, block, Decision.carriedOut]
  | saved rest => simp [left, block]
  | done => simp [left, block]
  | failed e => simp [left, block]

end Process

/-! ### Turns -/

/-- The staging area was saved. -/
structure Save where
  process : Nat
  work : Work
  /-- How many times the staging area had been saved before the process loaded it. -/
  since : Nat
deriving DecidableEq

/-- Processes that take turns, and the world in which they do. -/
structure Scene where
  world : World
  progress : Nat → Progress
  /-- Everything that was saved, in order. -/
  saves : List Save

/-- Something that happens while processes take turns. -/
inductive Incident where
  | turn (process : Nat)
  /-- Something else changes the world. -/
  | meanwhile (change : World → World)

namespace Progress

/-- The progress after a block. -/
def ofResult : Except Error Progress → Progress
  | .ok progress => progress
  | .error e => .failed e

/-- What was saved by a process on its way from one progress to the next. -/
def saving (i : Nat) : Progress → Progress → List Save
  | .decided _ work since _ _, .saved _ => [⟨i, work, since⟩]
  | _, _ => []

end Progress

namespace Scene

/-- No process has begun. -/
def start (w : World) : Scene := ⟨w, fun _ => .waiting, []⟩

/-- The scene after the turn of a process. -/
def turn (processes : Nat → Process) (scene : Scene) (i : Nat) : Scene :=
  let r := ((processes i).block scene.saves.length (scene.progress i)).exec scene.world
  { world := r.2
    progress := Function.update scene.progress i (.ofResult r.1)
    saves := scene.saves ++ (scene.progress i).saving i (.ofResult r.1) }

/-- The scene after an incident. -/
def step (processes : Nat → Process) (scene : Scene) : Incident → Scene
  | .turn i => scene.turn processes i
  | .meanwhile change => { scene with world := change scene.world }

/-- The scene after many incidents, one after the other. -/
def run (processes : Nat → Process) (scene : Scene) (incidents : List Incident) : Scene :=
  incidents.foldl (step processes) scene

variable {processes : Nat → Process} {scene : Scene} {i : Nat}

/-- A process that is not interrupted goes on with what it still has to do. -/
lemma exec_left_turn (processes : Nat → Process) (scene : Scene) (i : Nat) :
    ((processes i).left ((scene.turn processes i).progress i)).exec (scene.turn processes i).world =
      ((processes i).left (scene.progress i)).exec scene.world := by
  have hblock := (processes i).left_eq scene.saves.length (scene.progress i)
  rw [hblock, turn]
  simp only [Function.update_self]
  rcases hrun : ((processes i).block scene.saves.length (scene.progress i)).exec scene.world with
    ⟨e | progress, w⟩
  · rw [exec_bind_error hrun]
    rfl
  · rw [exec_bind_ok hrun]
    rfl

/-- A process that is not interrupted carries out its command. -/
theorem exec_left_run (processes : Nat → Process) (scene : Scene) (i n : Nat) :
    ((processes i).left ((scene.run processes (.replicate n (.turn i))).progress i)).exec
        (scene.run processes (.replicate n (.turn i))).world =
      ((processes i).left (scene.progress i)).exec scene.world := by
  induction n generalizing scene with
  | zero => rfl
  | succ n ih => exact (ih (scene.turn processes i)).trans (exec_left_turn processes scene i)

end Scene

/-! ### The file of the staging area -/

variable {α : Type} {root : Path} {dir : Route} {content content' : Option Bytes} {w w' w'' : World}
  {t : Attempt α} {a : StagingArea} {p : Process} {work : Work} {progress progress' : Progress}
  {saves : List Save} {i : Nat} {d : StateDirectory}

/-- The state directory has been opened, and the file of the staging area has this content. -/
def IsOpen (root : Path) (content : Option Bytes) (w : World) : Prop :=
  ∃ dir, Holding root dir content w

lemma IsOpen.hasFile (h : IsOpen root content w) : HasFile root content w := by
  obtain ⟨dir, h⟩ := h
  exact hasFile_of_holding h

/-- A state directory that has been opened need not be opened to see the file. -/
lemma IsOpen.of_hasFile (h : IsOpen root content w) (hfile : HasFile root content' w) :
    IsOpen root content' w := by
  obtain ⟨dir, h⟩ := h
  obtain ⟨dir', w', hopened, hholding⟩ := hfile
  obtain ⟨-, rfl⟩ := Prod.mk.inj ((opened_of_enters h.enters).symm.trans hopened)
  exact ⟨dir', hholding⟩

lemma IsOpen.load (h : IsOpen root content w) : (loadArea ⟨root⟩).exec w = (loaded content, w) := by
  obtain ⟨dir, h⟩ := h
  exact exec_loadArea h

/-- The file of the staging area stays as it is, and no request is taken back. -/
structure KeepsFile (root : Path) (w w' : World) : Prop where
  hasFile : ∀ content, HasFile root content w → HasFile root content w'
  isOpen : ∀ content, IsOpen root content w → IsOpen root content w'
  requests : w.requests <+: w'.requests

lemma LeavesFile.keepsFile (ht : LeavesFile root t) (w : World) :
    KeepsFile root w (t.exec w).2 where
  hasFile content h := ht.unopened content w h
  isOpen content h := by
    obtain ⟨dir, h⟩ := h
    exact ⟨dir, ht.opened dir content w h⟩
  requests := requests_exec t w

lemma KeepsFile.of_leaves (h : IsOpen root content w)
    (ht : ∀ dir content, Leaves (Holding root dir content) t) : KeepsFile root w (t.exec w).2 where
  hasFile content' hfile := by
    obtain ⟨dir, h'⟩ := h.of_hasFile hfile
    exact hasFile_of_holding (ht dir content' w h')
  isOpen content' h' := by
    obtain ⟨dir, h'⟩ := h'
    exact ⟨dir, ht dir content' w h'⟩
  requests := requests_exec t w

lemma KeepsFile.refl (w : World) : KeepsFile root w w :=
  ⟨fun _ h => h, fun _ h => h, List.prefix_refl _⟩

/-- The clock, the environment and the network may change at will. -/
lemma KeepsFile.of_sameFiles (hsame : w.SameFiles w') (hrequests : w'.requests = w.requests) :
    KeepsFile root w w' where
  hasFile content h := h.congr hsame
  isOpen content h := by
    obtain ⟨dir, h⟩ := h
    exact ⟨dir, ofFiles_holding w w' hsame.1 hsame.2 h⟩
  requests := hrequests ▸ List.prefix_refl _

/-- What is true after everything that may happen: the file can be read and written as before,
whatever it holds. -/
structure Onward (root : Path) (w w' : World) : Prop where
  hasFile : (∃ content, HasFile root content w) → ∃ content, HasFile root content w'
  isOpen : (∃ content, IsOpen root content w) → ∃ content, IsOpen root content w'
  requests : w.requests <+: w'.requests

lemma KeepsFile.onward (h : KeepsFile root w w') : Onward root w w' where
  hasFile := fun ⟨content, hfile⟩ => ⟨content, h.hasFile content hfile⟩
  isOpen := fun ⟨content, hopen⟩ => ⟨content, h.isOpen content hopen⟩
  requests := h.requests

/-! ### What a process has come to -/

/-- The command stages packages. -/
def Command.isStaging : Command → Bool
  | .add _ _ | .delete _ _ | .copy _ _ _ | .move _ _ _ => true
  | _ => false

/-- The work is that of the command of a process, in some working directory. -/
def Process.Does (p : Process) (work : Work) : Prop := ∃ here, p.command.work? here = some work

lemma Process.Does.stage (h : p.Does work) (hp : p.command.isStaging = true) :
    ∃ s batch, work = .stage s batch := by
  obtain ⟨here, h⟩ := h
  obtain ⟨command, config⟩ := p
  cases command with
  | add => exact ⟨_, _, (Option.some.inj h).symm⟩
  | delete => exact ⟨_, _, (Option.some.inj h).symm⟩
  | copy => exact ⟨_, _, (Option.some.inj h).symm⟩
  | move => exact ⟨_, _, (Option.some.inj h).symm⟩
  | _ => exact nomatch hp

/-- A command that stages packages has nothing else to do. -/
lemma Process.Does.isStaging_eq_false (h : p.Does work) (hwork : work = .status ∨ work = .push) :
    p.command.isStaging = false := by
  refine Bool.eq_false_iff.2 fun hp => ?_
  obtain ⟨s, batch, rfl⟩ := h.stage hp
  rcases hwork with hwork | hwork
  · cases hwork
  · cases hwork

/-- A command that stages packages has work to do. -/
lemma Command.isStaging_eq_false {command : Command} {here : Path}
    (h : command.work? here = none) : command.isStaging = false := by
  cases command with
  | add | delete | copy | move => exact nomatch h
  | _ => rfl

/-- A process has opened the state directory and has this work to do. -/
structure Underway (root : Path) (p : Process) (d : StateDirectory) (work : Work) (w : World) :
    Prop where
  directory : d = ⟨root⟩
  keyed : work.Keyed
  does : p.Does work
  isOpen : ∃ content, IsOpen root content w

/-- What is true of the process `p` of number `i` when this has been saved. -/
def Progress.Sound (root : Path) (p : Process) (i : Nat) (saves : List Save) (w : World) :
    Progress → Prop
  | .waiting | .failed _ => True
  | .ready d work => Underway root p d work w
  | .loaded d work since a => Underway root p d work w ∧ a.WellFormed ∧ since ≤ saves.length
  | .decided d work since a decision =>
    Underway root p d work w ∧ a.WellFormed ∧ since ≤ saves.length ∧
      work.Decides root a (some decision) w
  | .saved rest =>
    (∃ content, IsOpen root content w) ∧ Harmless root rest ∧ ∃ save ∈ saves, save.process = i
  | .done => p.command.isStaging = true → ∃ save ∈ saves, save.process = i

/-! ### Moves -/

/-- What a process can do at its turn, after so many saves: from its progress and the world before
it to those after it. -/
inductive Progress.Move (root : Path) (p : Process) (saves : Nat) :
    Progress → World → Progress → World → Prop
  /-- The process is over. -/
  | passDone (w : World) : Move root p saves .done w .done w
  | passFailed (e : Error) (w : World) : Move root p saves (.failed e) w (.failed e) w
  /-- Something goes wrong, and the file is as it was. -/
  | fail {progress : Progress} {w w' : World} (e : Error) (hkeeps : KeepsFile root w w') :
      Move root p saves progress w (.failed e) w'
  /-- A command without work on the staging area is carried out. -/
  | finish {w w' : World} (hp : p.command.isStaging = false) (hkeeps : KeepsFile root w w') :
      Move root p saves .waiting w .done w'
  /-- The state directory is opened. -/
  | enter {work : Work} {w w' : World} (h : Underway root p ⟨root⟩ work w')
      (hkeeps : KeepsFile root w w') : Move root p saves .waiting w (.ready ⟨root⟩ work) w'
  /-- The staging area is loaded. -/
  | load {work : Work} {a : StagingArea} {content : Option Bytes} {w : World}
      (hopen : IsOpen root content w) (ha : Reads a content) :
      Move root p saves (.ready ⟨root⟩ work) w (.loaded ⟨root⟩ work saves a) w
  /-- It is decided what is to be saved. -/
  | decide {work : Work} {since : Nat} {a : StagingArea} {decision : Decision} {w w' : World}
      (hdecides : work.Decides root a (some decision) w') (hkeeps : KeepsFile root w w') :
      Move root p saves (.loaded ⟨root⟩ work since a) w (.decided ⟨root⟩ work since a decision) w'
  /-- Nothing is to be saved. -/
  | leave {work : Work} {since : Nat} {a : StagingArea} {w w' : World}
      (hp : p.command.isStaging = false) (hkeeps : KeepsFile root w w') :
      Move root p saves (.loaded ⟨root⟩ work since a) w .done w'
  /-- What was decided is saved. -/
  | save {work : Work} {since : Nat} {a : StagingArea} {decision : Decision}
      {content : Option Bytes} {w w' : World} (hopen : IsOpen root content w')
      (hstored : Stored decision.area content) (hrequests : w.requests <+: w'.requests) :
      Move root p saves (.decided ⟨root⟩ work since a decision) w (.saved decision.rest) w'
  /-- The rest is done. -/
  | complete {rest : Attempt Unit} {w w' : World} (hkeeps : KeepsFile root w w') :
      Move root p saves (.saved rest) w .done w'

/-- The progress and the world after an attempt to make progress. -/
def Progress.Moves (root : Path) (p : Process) (saves : Nat) (progress : Progress) (w : World)
    (r : Except Error Progress × World) : Prop :=
  Move root p saves progress w (.ofResult r.1) r.2

lemma moves_opening (hroot : p.config.stateDirectory = root) (hfile : HasFile root content w)
    (saves : Nat) : Progress.waiting.Moves root p saves w ((p.block saves .waiting).exec w) := by
  have hkeeps := (leavesFile_opening hroot p.command).keepsFile w
  have hready := ready_opening hfile hroot p.command
  refine exec_bind_cases ?_ ?_
  · intro e w' hrun
    rw [hrun] at hkeeps
    exact .fail e hkeeps
  · intro r w' hrun
    rw [hrun] at hkeeps hready
    cases r with
    | none => exact .finish (Command.isStaging_eq_false hready.1) hkeeps
    | some r =>
      obtain ⟨d, work⟩ := r
      obtain ⟨hwork, hkeyed, rfl, hopen⟩ := hready
      exact .enter ⟨rfl, hkeyed, ⟨_, hwork⟩, content, hopen⟩ hkeeps

lemma moves_load (h : Underway root p d work w) (saves : Nat) :
    (Progress.ready d work).Moves root p saves w ((p.block saves (.ready d work)).exec w) := by
  obtain ⟨rfl, -, -, content, hopen⟩ := h
  cases ha : loaded content with
  | error e =>
    have hload : (loadArea ⟨root⟩).exec w = (.error e, w) := ha ▸ hopen.load
    rw [Process.block, exec_bind_error hload]
    exact .fail e (.refl w)
  | ok a =>
    have hload : (loadArea ⟨root⟩).exec w = (.ok a, w) := ha ▸ hopen.load
    rw [Process.block, exec_bind_ok hload]
    exact .load hopen ha

lemma moves_decide (h : Underway root p d work w) (saves since : Nat) (a : StagingArea) :
    (Progress.loaded d work since a).Moves root p saves w
      ((p.block saves (.loaded d work since a)).exec w) := by
  obtain ⟨rfl, hkeyed, hdoes, content, hopen⟩ := h
  have hkeeps : KeepsFile root w ((work.decided p.config ⟨root⟩ a).exec w).2 :=
    .of_leaves hopen fun dir content => leaves_decided
  refine exec_bind_cases ?_ ?_
  · intro e w' hrun
    rw [hrun] at hkeeps
    exact .fail e hkeeps
  · intro decision? w' hrun
    have hdecides := ends_decided hkeyed w decision? w' hrun
    rw [hrun] at hkeeps
    cases decision? with
    | none => exact .leave (hdoes.isStaging_eq_false hdecides.2) hkeeps
    | some decision => exact .decide hdecides hkeeps

lemma moves_save (h : Underway root p d work w) (saves since : Nat) (a : StagingArea)
    (decision : Decision) :
    (Progress.decided d work since a decision).Moves root p saves w
      ((p.block saves (.decided d work since a decision)).exec w) := by
  obtain ⟨rfl, -, -, content, dir, hholding⟩ := h
  have hrequests := requests_exec (saveArea ⟨root⟩ decision.area) w
  rcases exec_saveArea_cases decision.area hholding with ⟨e, hsave⟩ | ⟨w', content', hsave, h', hst⟩
  · rw [Process.block, exec_bind_error hsave]
    exact .fail e (.refl w)
  · rw [hsave] at hrequests
    rw [Process.block, exec_bind_ok hsave]
    exact .save ⟨dir, h'⟩ hst hrequests

lemma moves_rest {rest : Attempt Unit} (h : IsOpen root content w) (hrest : Harmless root rest)
    (saves : Nat) :
    (Progress.saved rest).Moves root p saves w ((p.block saves (.saved rest)).exec w) := by
  have hkeeps : KeepsFile root w (rest.exec w).2 := .of_leaves h hrest.leaves
  refine exec_bind_cases ?_ ?_
  · intro e w' hrun
    rw [hrun] at hkeeps
    exact .fail e hkeeps
  · intro u w' hrun
    rw [hrun] at hkeeps
    exact .complete hkeeps

/-- A process does nothing at its turn but move. -/
theorem moves_block (hroot : p.config.stateDirectory = root)
    (hfile : ∃ content, HasFile root content w) (h : progress.Sound root p i saves w) :
    progress.Moves root p saves.length w ((p.block saves.length progress).exec w) := by
  cases progress with
  | waiting =>
    obtain ⟨content, hfile⟩ := hfile
    exact moves_opening hroot hfile _
  | ready d work => exact moves_load h _
  | loaded d work since a => exact moves_decide h.1 _ _ _
  | decided d work since a decision => exact moves_save h.1 _ _ _ _
  | saved rest =>
    obtain ⟨⟨content, hopen⟩, hrest, -⟩ := h
    exact moves_rest hopen hrest _
  | done => exact .passDone w
  | failed e => exact .passFailed e w

end PackageStaging.CommandLine
