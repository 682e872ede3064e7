/-
# Before the staging area is loaded

A command gets ready to work on the staging area: it reads its arguments, opens the state directory
and checks the sections.  `ready_opening` says what it has come to then, and `leavesFile_opening`
that the file of the staging area is as it was, also after the commands that do not work on it at
all.
-/
import PackageStaging.Proofs.CommandLine.Outcomes
import PackageStaging.Proofs.CommandLine.Parts

namespace PackageStaging.CommandLine

open Attempt StateDirectory SectionAddress

variable {root : Path} {dir : Route} {content : Option Bytes} {w : World} {config : Config}
  {k : SectionKey} {s : SectionAddress} {work : Work} {given : Option Work}

/-- The section of the work has a key, if the work is for one. -/
def Work.Keyed : Work → Prop
  | .stage s _ | .unstage s _ => ∃ k, s.KeyedBy k
  | .clear | .status | .push => True

/-- The work of a command that is given in this working directory. -/
def Command.work? (here : Path) : Command → Option Work
  | .add origin files => some <| .stage (.ofString origin)
      (.add (groupFiles (.ofString origin) (files.map (Path.absolute here))))
  | .delete origin names => some (.stage (.ofString origin) (.delete names))
  | .copy origin target names =>
    some (.stage (.ofString origin) (.copy names (.ofString target)))
  | .move origin target names =>
    some (.stage (.ofString origin) (.move names (.ofString target)))
  | .unstage origin names => some (.unstage (.ofString origin) names)
  | .clear => some .clear
  | .status => some .status
  | .push => some .push
  | .login _ | .logout | .sections | .sync | .snap _ => none

/-- What has become of a command before it loads the area: it has failed, or it has done all that it
does, or the state directory is open and this work comes next. -/
def Ready (root : Path) (content : Option Bytes) (given : Option Work)
    (r : Except Error (Option (StateDirectory × Work)) × World) : Prop :=
  match r.1 with
  | .error _ => HasFile root content r.2
  | .ok none => given = none ∧ HasFile root content r.2
  | .ok (some (d, work)) => given = some work ∧ work.Keyed ∧ d = ⟨root⟩ ∧
    ∃ dir, Holding root dir content r.2

lemma allowsFailure_ready : AllowsFailure root content (Ready root content given) :=
  fun _ _ h => h

lemma ready_of_holding (h : Holding root dir content w) (hkeyed : work.Keyed) :
    Ready root content (some work) ((pure (some (⟨root⟩, work)) : Attempt _).exec w) :=
  ⟨rfl, hkeyed, rfl, dir, h⟩

/-- A section that a command names has a key. -/
lemma keyedBy_of_readSection {given : String} (h : readSection given = .ok s) :
    s = .ofString given ∧ ∃ k, s.KeyedBy k := by
  simp only [readSection] at h
  split_ifs at h with hcomplete
  have hs := Except.ok.inj h
  subst hs
  exact ⟨rfl, keyedBy_ofString hcomplete⟩

lemma leaves_checkSections {sections : List SectionAddress} :
    Leaves (Holding root dir content) (checkSections config ⟨root⟩ sections) := by
  have hP : OfFiles (Holding root dir content) := ofFiles_holding
  refine (Connection.leaves_opened hP config ⟨root⟩).outcome.bind fun r => ?_
  split
  · exact leaves_complain hP _
  · exact leaves_fail _
  · refine (Client.leaves_sections hP _).bind fun listing => ?_
    exact (Connection.leaves_keepSession _).bind fun _ => leaves_ofExcept _

/-- Sections are checked before a batch is staged. -/
lemma ready_stageOpening (h : HasFile root content w) (hroot : config.stateDirectory = root)
    (hs : s.KeyedBy k) (sections : List SectionAddress) (batch : Batch) :
    Ready root content (some (.stage s batch))
      ((stageOpening config s sections batch).exec w) := by
  refine exec_of_opened h hroot fun dir w' hholding => ?_
  refine exec_of_leaves allowsFailure_ready hholding leaves_checkSections fun _ w'' _ hafter => ?_
  exact ready_of_holding hafter ⟨k, hs⟩

/-- The state directory is opened and nothing else is done. -/
lemma ready_open (h : HasFile root content w) (hroot : config.stateDirectory = root)
    (hkeyed : work.Keyed) :
    Ready root content (some work)
      ((openState config >>= fun d => pure (some (d, work))).exec w) :=
  exec_of_opened h hroot fun _ _ hholding => ready_of_holding hholding hkeyed

/-- Files are looked up and nothing is changed. -/
lemma exec_locateFiles (files : List Path) (w : World) :
    ((locateFiles files).exec w).2 = w ∧ ∀ paths, ((locateFiles files).exec w).1 = .ok paths →
      paths = files.map (Path.absolute w.workingDirectory) := by
  induction files with
  | nil =>
    refine ⟨rfl, ?_⟩
    intro paths h
    exact (Except.ok.inj h).symm
  | cons p ps ih =>
    obtain ⟨hworld, hpaths⟩ := ih
    have hfile : w.answer (.isFile p) = (w.files.isFile w.here p, w) := rfl
    have hhere : w.answer .workingDirectory = (w.workingDirectory, w) := rfl
    rw [locateFiles, exec_ask_bind, hfile]
    cases w.files.isFile w.here p with
    | false =>
      refine ⟨rfl, ?_⟩
      intro paths h
      cases h
    | true =>
      -- the working directory is asked for with each file, and is the same each time
      have hrest : ∀ r, r = (locateFiles ps >>= fun rest =>
          pure (Path.absolute w.workingDirectory p :: rest)).exec w → r.2 = w ∧
          ∀ paths, r.1 = .ok paths →
            paths = (p :: ps).map (Path.absolute w.workingDirectory) := by
        rintro r rfl
        rcases hrun : (locateFiles ps).exec w with ⟨e | rest, w'⟩
        · rw [hrun] at hworld
          rw [exec_bind_error hrun]
          exact ⟨hworld, fun paths h => nomatch h⟩
        · rw [hrun] at hworld hpaths
          rw [exec_bind_ok hrun, hpaths rest rfl]
          exact ⟨hworld, fun paths h => (Except.ok.inj h).symm⟩
      exact hrest _ rfl

lemma ready_add (h : HasFile root content w) (hroot : config.stateDirectory = root)
    (origin : String) (files : List Path) :
    Ready root content ((Command.add origin files).work? w.workingDirectory)
      (((Command.add origin files).opening config).exec w) := by
  refine exec_of_still allowsFailure_ready h rfl fun s hs => ?_
  obtain ⟨rfl, k, hk⟩ := keyedBy_of_readSection hs
  obtain ⟨hworld, hpaths⟩ := exec_locateFiles files w
  refine exec_of_still allowsFailure_ready h hworld fun paths hlocated => ?_
  rw [hpaths paths hlocated]
  refine exec_of_opened h hroot fun dir w' hholding => ?_
  refine exec_of_leaves allowsFailure_ready hholding leaves_checkSections fun _ w'' _ hafter => ?_
  have hP : OfFiles (Holding root dir content) := ofFiles_holding
  refine exec_of_leaves allowsFailure_ready hafter (leaves_forM fun e _ => leaves_say hP _)
    fun _ w3 _ hlast => ?_
  exact ready_of_holding hlast ⟨k, hk⟩

/-! ### Commands without work on the area -/

/-- Asking the server over a connection. -/
lemma leavesFile_connection {α : Type} (ask : Connection → Attempt α) {report : α → Attempt Unit}
    (hroot : config.stateDirectory = root) (hask : ∀ P, OfFiles P → ∀ c, Leaves P (ask c))
    (hreport : ∀ P, OfFiles P → ∀ x, Leaves P (report x)) :
    LeavesFile root (do
      let d ← openState config
      let connection ← Connection.opened config d
      let x ← ask connection
      connection.keepSession d
      report x) := by
  refine leavesFile_opened hroot fun dir content => ?_
  have hP : OfFiles (Holding root dir content) := ofFiles_holding
  refine (Connection.leaves_opened hP _ _).bind fun connection => ?_
  refine (hask _ hP connection).bind fun x => ?_
  exact (Connection.leaves_keepSession _).bind fun _ => hreport _ hP x

lemma leavesFile_runLogin (hroot : config.stateDirectory = root) (user : Option String) :
    LeavesFile root (runLogin config user) := by
  refine leavesFile_opened hroot fun dir content => ?_
  have hP : OfFiles (Holding root dir content) := ofFiles_holding
  have hask : ∀ label isSecret, Leaves (Holding root dir content) (askFor label isSecret) := by
    intro label isSecret
    refine (leaves_ask hP rfl).bind fun line => ?_
    split
    · exact leaves_pure _
    · exact leaves_fail _
  have hrest : ∀ name, Leaves (Holding root dir content) (do
      let password ← askFor "Password" true
      let opened ← Client.login ⟨config.serverUrl, none⟩ name password
      saveSession ⟨root⟩ opened.2
      say (doneLine ("Logged in to " ++ config.serverUrl.text ++ " as " ++ name))) := by
    intro name
    refine (hask _ _).bind fun password => ?_
    refine (Client.leaves_login hP _ _ _).bind fun v => ?_
    exact (leaves_saveSession _).bind fun _ => leaves_say hP _
  cases user with
  | some name => exact (leaves_pure name).bind hrest
  | none => exact (hask _ _).bind hrest

lemma leavesFile_runLogout (hroot : config.stateDirectory = root) :
    LeavesFile root (runLogout config) := by
  refine leavesFile_opened hroot fun dir content => ?_
  have hP : OfFiles (Holding root dir content) := ofFiles_holding
  refine (leaves_load hP _ _ _).bind fun session => ?_
  split
  · exact leaves_say hP _
  · have hrest : Leaves (Holding root dir content) (do
        clearSession ⟨root⟩
        say (doneLine "Logged out")) := leaves_clearSession.bind fun _ => leaves_say hP _
    refine (Client.leaves_logout hP _).outcome.bind fun r => ?_
    split
    · exact hrest
    · exact (leaves_complain hP _).bind fun _ => hrest

lemma leavesFile_runSections (hroot : config.stateDirectory = root) :
    LeavesFile root (runSections config) := by
  refine leavesFile_connection (fun c => c.client.sections) hroot
    (fun P hP c => Client.leaves_sections hP _) fun P hP listing => ?_
  split_ifs
  · exact leaves_say hP _
  · exact leaves_forM fun line _ => leaves_say hP line

lemma leavesFile_runSync (hroot : config.stateDirectory = root) :
    LeavesFile root (runSync config) :=
  leavesFile_connection (fun c => c.client.sync) hroot
    (fun _ hP _ => Client.leaves_sync hP _) fun _ hP _ => leaves_say hP _

lemma leavesFile_runSnap (hroot : config.stateDirectory = root) (what : SnapRequest) :
    LeavesFile root (runSnap config what) :=
  leavesFile_connection (fun c => c.client.snap what) hroot
    (fun _ hP _ => Client.leaves_snap hP _ _) fun _ hP _ => leaves_say hP _

/-- A command that is carried out as a whole. -/
lemma ready_whole {t : Attempt Unit} (ht : LeavesFile root t) (h : HasFile root content w) :
    Ready root content none ((t >>= fun _ => pure none).exec w) := by
  have hafter := ht.unopened content w h
  refine exec_bind_cases ?_ ?_
  · intro e w' hrun
    rw [hrun] at hafter
    exact hafter
  · intro u w' hrun
    rw [hrun] at hafter
    exact ⟨rfl, hafter⟩

/-! ### All commands, before the area is loaded -/

/-- A command that has failed or has no work leaves the area, and one that has work comes to the
work that it is given. -/
theorem ready_opening (h : HasFile root content w) (hroot : config.stateDirectory = root)
    (command : Command) :
    Ready root content (command.work? w.workingDirectory) ((command.opening config).exec w) := by
  cases command with
  | login user => exact ready_whole (leavesFile_runLogin hroot user) h
  | logout => exact ready_whole (leavesFile_runLogout hroot) h
  | sections => exact ready_whole (leavesFile_runSections hroot) h
  | add origin files => exact ready_add h hroot origin files
  | delete origin names =>
    refine exec_of_still allowsFailure_ready h rfl fun s hs => ?_
    obtain ⟨rfl, k, hk⟩ := keyedBy_of_readSection hs
    exact ready_stageOpening h hroot hk _ _
  | copy origin target names =>
    refine exec_of_still allowsFailure_ready h rfl fun s hs => ?_
    obtain ⟨rfl, k, hk⟩ := keyedBy_of_readSection hs
    refine exec_of_still allowsFailure_ready h rfl fun t ht => ?_
    obtain ⟨rfl, -⟩ := keyedBy_of_readSection ht
    exact ready_stageOpening h hroot hk _ _
  | move origin target names =>
    refine exec_of_still allowsFailure_ready h rfl fun s hs => ?_
    obtain ⟨rfl, k, hk⟩ := keyedBy_of_readSection hs
    refine exec_of_still allowsFailure_ready h rfl fun t ht => ?_
    obtain ⟨rfl, -⟩ := keyedBy_of_readSection ht
    exact ready_stageOpening h hroot hk _ _
  | unstage origin names =>
    refine exec_of_still allowsFailure_ready h rfl fun s hs => ?_
    obtain ⟨rfl, k, hk⟩ := keyedBy_of_readSection hs
    exact ready_open h hroot ⟨k, hk⟩
  | clear => exact ready_open h hroot trivial
  | status => exact ready_open h hroot trivial
  | push => exact ready_open h hroot trivial
  | sync => exact ready_whole (leavesFile_runSync hroot) h
  | snap what => exact ready_whole (leavesFile_runSnap hroot what) h

/-- Nothing that a command does before it loads the area changes the file. -/
theorem leavesFile_opening (hroot : config.stateDirectory = root) (command : Command) :
    LeavesFile root (command.opening config) := by
  have hsection : ∀ given, LeavesFile root (Attempt.ofExcept (readSection given)) :=
    fun _ => leavesFile_of_still fun _ => rfl
  have hstage : ∀ s sections batch, LeavesFile root (stageOpening config s sections batch) :=
    fun s sections batch => leavesFile_opened hroot fun dir content =>
      leaves_checkSections.bind fun _ => leaves_pure _
  have hopen : ∀ work : Work,
      LeavesFile root (openState config >>= fun d => pure (some (d, work))) :=
    fun work => leavesFile_opened hroot fun dir content => leaves_pure _
  cases command with
  | login user => exact (leavesFile_runLogin hroot user).bind fun _ => leavesFile_pure _
  | logout => exact (leavesFile_runLogout hroot).bind fun _ => leavesFile_pure _
  | sections => exact (leavesFile_runSections hroot).bind fun _ => leavesFile_pure _
  | add origin files =>
    refine (hsection _).bind fun s => ?_
    refine (leavesFile_of_still fun w => (exec_locateFiles files w).1).bind fun paths => ?_
    refine leavesFile_opened hroot fun dir content => ?_
    refine leaves_checkSections.bind fun _ => ?_
    exact (leaves_forM fun e _ => leaves_say ofFiles_holding _).bind fun _ => leaves_pure _
  | delete origin names => exact (hsection _).bind fun s => hstage _ _ _
  | copy origin target names =>
    exact (hsection _).bind fun s => (hsection _).bind fun t => hstage _ _ _
  | move origin target names =>
    exact (hsection _).bind fun s => (hsection _).bind fun t => hstage _ _ _
  | unstage origin names => exact (hsection _).bind fun s => hopen _
  | clear => exact hopen _
  | status => exact hopen _
  | push => exact hopen _
  | sync => exact (leavesFile_runSync hroot).bind fun _ => leavesFile_pure _
  | snap what => exact (leavesFile_runSnap hroot what).bind fun _ => leavesFile_pure _

end PackageStaging.CommandLine
