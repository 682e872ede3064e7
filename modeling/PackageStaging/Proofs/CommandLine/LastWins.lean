/-
# The last command wins

Commands are carried out one after another on one state directory, and the world may change in
between.  The staging area that is then loaded is the plan that the commands make
(`last_command_wins`): every command that succeeds changes the plan as `Plan.after` says, and a
command that fails leaves it.
-/
import PackageStaging.Proofs.CommandLine.Commands

namespace PackageStaging.CommandLine

open Attempt StateDirectory

variable {root : Path} {a b : StagingArea} {w w' : World} {plan : Plan}

/-! ### Commands one after another -/

/-- A command that is carried out, and what becomes of the world before the next one. -/
structure Errand where
  command : Command
  config : Config
  meanwhile : World → World

namespace Errand

/-- The result of the command, and the world after it. -/
def outcome (e : Errand) (w : World) : Except Error Unit × World :=
  (e.command.perform e.config).exec w

/-- The world in which the next command is carried out. -/
def next (e : Errand) (w : World) : World := e.meanwhile (e.outcome w).2

/-- The plan after the command, which is the one before if the command fails. -/
def planned (e : Errand) (w : World) (plan : Plan) : Plan :=
  match (e.outcome w).1 with
  | .ok () => plan.after w.workingDirectory e.command
  | .error _ => plan

end Errand

/-- The world and the plan after commands that are carried out one after another. -/
def runAll (w : World) (plan : Plan) : List Errand → World × Plan
  | [] => (w, plan)
  | e :: es => runAll (e.next w) (e.planned w plan) es

/-- The change of the world leaves what is held in the state directory. -/
def LeavesState (root : Path) (change : World → World) : Prop :=
  ∀ a w, Holds root a w → Holds root a (change w)

/-- The clock, the environment and the network may change at will. -/
lemma leavesState_of_files {change : World → World}
    (h : ∀ w, (change w).files = w.files ∧ (change w).here = w.here) :
    LeavesState root change := by
  intro a w hw
  obtain ⟨ha, content, hfile, hstored⟩ := holds_iff.1 hw
  exact holds_iff.2 ⟨ha, content, hfile.congr (h w), hstored⟩

/-! ### The start -/

/-- The state directory can be opened, and no staging area has been saved in it. -/
structure Fresh (root : Path) (w : World) : Prop where
  here : w.files.node? w.here = some .directory
  opened : ∃ w', (opened root).exec w = (.ok ⟨root⟩, w') ∧
    (w'.answer (.readFile (path ⟨root⟩ stagedName))).1 = .error .noSuchEntry ∧
    (w'.answer (.isDirectory (path ⟨root⟩ (draftName stagedName)))).1 = false

lemma Fresh.holds (h : Fresh root w) : Holds root .empty w := by
  obtain ⟨hhere, w', hopened, hstaged, hdraft⟩ := h
  obtain ⟨-, dir, henters⟩ := enters_of_opened hhere hopened
  have hstagedAt := locate_of_enters henters staged_mem
  refine ⟨StagingArea.wellFormed_empty, dir, none, w', hopened,
    ⟨henters, ?_, draft_of_isDirectory henters hdraft⟩, rfl⟩
  have hread : w'.files.read w'.here (path ⟨root⟩ stagedName) = .error .noSuchEntry := hstaged
  cases hnode : w'.files.node? (place dir stagedName) with
  | none => rfl
  | some n =>
    cases n with
    | directory =>
      rw [FileTree.read, FileTree.find_of_locate_directory hstagedAt hnode] at hread
      cases hread
    | file bytes =>
      rw [FileTree.read_of_locate hstagedAt hnode] at hread
      cases hread

/-! ### The run -/

/-- One command changes what is held as it changes the plan. -/
lemma Errand.holds_next {e : Errand} (h : Holds root a w) (hroot : e.config.stateDirectory = root)
    (hleaves : LeavesState root e.meanwhile) :
    ∃ b, Holds root b (e.next w) ∧ b.plan = e.planned w a.plan := by
  obtain ⟨b, hb, hcases⟩ := outcome_perform h hroot e.command
  refine ⟨b, hleaves b _ hb, ?_⟩
  rcases hcases with ⟨⟨err, herr⟩, rfl⟩ | ⟨hok, hplan⟩
  · have hresult : (e.outcome w).1 = .error err := herr
    rw [Errand.planned, hresult]
  · have hresult : (e.outcome w).1 = .ok () := hok
    rw [Errand.planned, hresult, hplan]

/-- What is held after all commands is the plan that they make. -/
lemma holds_runAll (h : Holds root a w) (es : List Errand)
    (hes : ∀ e ∈ es, e.config.stateDirectory = root ∧ LeavesState root e.meanwhile) :
    ∃ b, Holds root b (runAll w a.plan es).1 ∧ b.plan = (runAll w a.plan es).2 := by
  -- the invariant is that the area which is held is the plan so far
  induction es generalizing a w with
  | nil => exact ⟨a, h, rfl⟩
  | cons e es ih =>
    obtain ⟨hroot, hleaves⟩ := hes e (.head _)
    obtain ⟨b, hb, hplan⟩ := e.holds_next h hroot hleaves
    rw [runAll, ← hplan]
    exact ih hb fun e' he' => hes e' (.tail _ he')

/-- After any commands on a fresh state directory, the staging area that is loaded is the plan that
the commands make, and unstaging succeeds exactly for what is planned. -/
theorem last_command_wins (hw : Fresh root w) (es : List Errand)
    (hes : ∀ e ∈ es, e.config.stateDirectory = root ∧ LeavesState root e.meanwhile) :
    (∃ a, ((opened root >>= loadArea).exec (runAll w .nothing es).1).1 = .ok a ∧ a.WellFormed ∧
      a.plan = (runAll w .nothing es).2) ∧
    ∀ (config : Config) (origin : String) (names : List String), config.stateDirectory = root →
      ((((Command.unstage origin names).perform config).exec (runAll w .nothing es).1).1 = .ok () ↔
        if names = [] then ∃ n op, (runAll w .nothing es).2 (.ofString origin) n = some op
        else names.Nodup ∧
          ∀ n ∈ names, ((runAll w .nothing es).2 (.ofString origin) n).isSome) := by
  have hstart : Holds root .empty w := hw.holds
  obtain ⟨b, hb, hplan⟩ := holds_runAll hstart es hes
  rw [StagingArea.plan_empty] at hb hplan
  refine ⟨⟨b, hb.load, hb.wellFormed, hplan⟩, ?_⟩
  intro config origin names hroot
  rw [perform_unstage_isOk_iff hb hroot, hplan]

/-- Two packages are to be deleted; then the clock goes on, and one of them is to be copied. -/
def deleteThenCopy : List Errand :=
  let config : Config := ⟨⟨[], none, .unstructured [], none, none⟩, .ofString "/s", 0⟩
  [⟨.delete "b/r/x" ["p", "q"], config, fun w => { w with clock := ⟨1, 0⟩ }⟩,
    ⟨.copy "b/r/x" "c/r/x" ["p"], config, id⟩]

/-- The last command wins for the package that both name. -/
theorem last_command_wins_copy :
    Fresh (.ofString "/s") World.empty ∧
    (∀ e ∈ deleteThenCopy, e.config.stateDirectory = .ofString "/s" ∧
      LeavesState (.ofString "/s") e.meanwhile) ∧
    ∃ a, ((opened (.ofString "/s") >>= loadArea).exec
        (runAll World.empty .nothing deleteThenCopy).1).1 = .ok a ∧
      a.plan (.ofString "b/r/x") "p" = some (.copy (.ofString "c/r/x")) ∧
      a.plan (.ofString "b/r/x") "q" = some .delete := by
  have hfresh : Fresh (.ofString "/s") World.empty :=
    ⟨rfl, ((opened (.ofString "/s")).exec World.empty).2, rfl, by decide +kernel,
      by decide +kernel⟩
  have hes : ∀ e ∈ deleteThenCopy, e.config.stateDirectory = .ofString "/s" ∧
      LeavesState (.ofString "/s") e.meanwhile := by
    intro e he
    simp only [deleteThenCopy, List.mem_cons, List.not_mem_nil, or_false] at he
    rcases he with rfl | rfl
    · exact ⟨rfl, leavesState_of_files fun _ => ⟨rfl, rfl⟩⟩
    · exact ⟨rfl, leavesState_of_files fun _ => ⟨rfl, rfl⟩⟩
  obtain ⟨⟨a, hload, -, hplan⟩, -⟩ := last_command_wins hfresh deleteThenCopy hes
  refine ⟨hfresh, hes, a, hload, ?_⟩
  rw [hplan]
  decide +kernel

end PackageStaging.CommandLine
