/-
# What becomes of the staging area

`HasFile` says what the file of the staging area holds, and `Outcome` what it holds after an
attempt: the same if the attempt failed, and something that is as it has to be if it succeeded.
There is one lemma for each way in which an attempt goes on while the file stays as it is.
-/
import PackageStaging.CommandLine
import PackageStaging.Proofs.Staging.Plan
import PackageStaging.Proofs.State.Asking

namespace PackageStaging.CommandLine

open Attempt StateDirectory

variable {α β : Type} {root : Path} {dir : Route} {content : Option Bytes} {a : StagingArea}
  {w w' : World} {t : Attempt α} {f : α → Attempt β} {config : Config}

/-- The staging area is held in the state directory: when it is opened, the file of the staging
area has the content that belongs to the area. -/
structure Holds (root : Path) (a : StagingArea) (w : World) : Prop where
  wellFormed : a.WellFormed
  held : ∃ dir content w', (opened root).exec w = (.ok ⟨root⟩, w') ∧
    Holding root dir content w' ∧ Stored a content

/-- When the state directory is opened, the file of the staging area has this content. -/
def HasFile (root : Path) (content : Option Bytes) (w : World) : Prop :=
  ∃ dir w', (opened root).exec w = (.ok ⟨root⟩, w') ∧ Holding root dir content w'

lemma hasFile_of_holding (h : Holding root dir content w) : HasFile root content w :=
  ⟨dir, w, opened_of_enters h.enters, h⟩

/-- The clock, the environment and the network may change at will. -/
lemma HasFile.congr (h : HasFile root content w) (hsame : w.SameFiles w') :
    HasFile root content w' := by
  obtain ⟨dir, w1, hopened, hholding⟩ := h
  obtain ⟨w2, hopened2, hsame2⟩ := opened_congr hsame hopened
  exact ⟨dir, w2, hopened2, ofFiles_holding w1 w2 hsame2.1 hsame2.2 hholding⟩

lemma holds_iff :
    Holds root a w ↔ a.WellFormed ∧ ∃ content, HasFile root content w ∧ Stored a content := by
  constructor
  · rintro ⟨ha, dir, content, w', hopened, hholding, hstored⟩
    exact ⟨ha, content, ⟨dir, w', hopened, hholding⟩, hstored⟩
  · rintro ⟨ha, content, ⟨dir, w', hopened, hholding⟩, hstored⟩
    exact ⟨ha, dir, content, w', hopened, hholding, hstored⟩

/-- The staging area is read when the state directory is opened. -/
def Loads (root : Path) (a : StagingArea) (w : World) : Prop :=
  ∃ content, HasFile root content w ∧ Reads a content

/-- What can be loaded is loaded. -/
theorem Loads.load (h : Loads root a w) : ((opened root >>= loadArea).exec w).1 = .ok a := by
  obtain ⟨content, ⟨dir, w', hopened, hholding⟩, ha⟩ := h
  rw [exec_bind_ok hopened, exec_loadArea hholding]
  exact ha

/-- If an area is loaded, and there is room for the draft of another one, the file holds it. -/
lemma loads_of_load (hhere : w.files.node? w.here = some .directory)
    (hload : ((opened root >>= loadArea).exec w).1 = .ok a)
    (hdraft : (((opened root).exec w).2.answer
      (.isDirectory (path ⟨root⟩ (draftName stagedName)))).1 = false) :
    Loads root a w := by
  rcases hopened : (opened root).exec w with ⟨e | d, w'⟩
  · rw [exec_bind_error hopened] at hload
    cases hload
  · obtain ⟨rfl, dir, henters⟩ := enters_of_opened hhere hopened
    rw [exec_bind_ok hopened] at hload
    rw [hopened] at hdraft
    obtain ⟨content, hholding, ha⟩ := holding_of_load henters hload hdraft
    exact ⟨content, ⟨dir, w', hopened, hholding⟩, ha⟩

lemma Holds.loads (h : Holds root a w) : Loads root a w := by
  obtain ⟨ha, content, hfile, hstored⟩ := holds_iff.1 h
  exact ⟨content, hfile, hstored.reads ha⟩

/-- What is held is loaded. -/
theorem Holds.load (h : Holds root a w) : ((opened root >>= loadArea).exec w).1 = .ok a :=
  h.loads.load

lemma Loads.wellFormed (h : Loads root a w) : a.WellFormed := by
  obtain ⟨content, -, ha⟩ := h
  exact ha.wellFormed

/-- What the file holds after an attempt: the same if it failed, else something of which `Q` is
true. -/
def Outcome (root : Path) (content : Option Bytes) (Q : Option Bytes → Prop)
    (r : Except Error Unit × World) : Prop :=
  ∃ content', HasFile root content' r.2 ∧
    ((∃ e, r.1 = .error e) ∧ content' = content ∨ r.1 = .ok () ∧ Q content')

/-! ### While the file stays as it is -/

/-- It is true of every failure after which the file is as it was. -/
def AllowsFailure (root : Path) (content : Option Bytes) (P : Except Error β × World → Prop) :
    Prop :=
  ∀ e w, HasFile root content w → P (.error e, w)

lemma allowsFailure_outcome {Q : Option Bytes → Prop} :
    AllowsFailure root content (Outcome root content Q) :=
  fun e _ h => ⟨content, h, .inl ⟨⟨e, rfl⟩, rfl⟩⟩

variable {P : Except Error β × World → Prop}

/-- What changes nothing is passed over. -/
lemma exec_of_still (hP : AllowsFailure root content P) (h : HasFile root content w)
    (ht : (t.exec w).2 = w) (hf : ∀ x, (t.exec w).1 = .ok x → P ((f x).exec w)) :
    P ((t >>= f).exec w) := by
  refine exec_bind_cases ?_ ?_
  · intro e w' hrun
    rw [hrun] at ht
    subst ht
    exact hP e w' h
  · intro x w' hrun
    rw [hrun] at ht hf
    subst ht
    exact hf x rfl

/-- The state directory is opened. -/
lemma exec_of_opened {g : StateDirectory → Attempt β} (h : HasFile root content w)
    (hroot : config.stateDirectory = root)
    (hg : ∀ dir w', Holding root dir content w' → P ((g ⟨root⟩).exec w')) :
    P ((openState config >>= g).exec w) := by
  obtain ⟨dir, w', hopened, hholding⟩ := h
  rw [openState, hroot, exec_bind_ok hopened]
  exact hg dir w' hholding

/-- What leaves the file is passed over. -/
lemma exec_of_leaves (hP : AllowsFailure root content P) (h : Holding root dir content w)
    (ht : Leaves (Holding root dir content) t)
    (hf : ∀ x w', t.exec w = (.ok x, w') → Holding root dir content w' → P ((f x).exec w')) :
    P ((t >>= f).exec w) := by
  have hafter := ht w h
  refine exec_bind_cases ?_ ?_
  · intro e w' hrun
    rw [hrun] at hafter
    exact hP e w' (hasFile_of_holding hafter)
  · intro x w' hrun
    rw [hrun] at hafter
    exact hf x w' hrun hafter

/-! ### What leaves the file -/

/-- The file stays as it is, whether the state directory has been opened before or is still to be
opened. -/
structure LeavesFile (root : Path) (t : Attempt α) : Prop where
  unopened : ∀ content, Leaves (HasFile root content) t
  opened : ∀ dir content, Leaves (Holding root dir content) t

lemma leavesFile_pure (x : α) : LeavesFile root (pure x) :=
  ⟨fun _ => leaves_pure x, fun _ _ => leaves_pure x⟩

lemma leavesFile_of_still (ht : ∀ w, (t.exec w).2 = w) : LeavesFile root t where
  unopened content w h := by rwa [ht w]
  opened dir content w h := by rwa [ht w]

lemma LeavesFile.bind (ht : LeavesFile root t) (hf : ∀ x, LeavesFile root (f x)) :
    LeavesFile root (t >>= f) where
  unopened content := (ht.unopened content).bind fun x => (hf x).unopened content
  opened dir content := (ht.opened dir content).bind fun x => (hf x).opened dir content

/-- A state directory that has been opened is opened again at the same place. -/
lemma leavesFile_opened {g : StateDirectory → Attempt β} (hroot : config.stateDirectory = root)
    (hg : ∀ dir content, Leaves (Holding root dir content) (g ⟨root⟩)) :
    LeavesFile root (openState config >>= g) where
  unopened content w h := by
    obtain ⟨dir, w', hopened, hholding⟩ := h
    rw [openState, hroot, exec_bind_ok hopened]
    exact hasFile_of_holding (hg dir content w' hholding)
  opened dir content w h := by
    rw [openState, hroot, exec_bind_ok (opened_of_enters h.enters)]
    exact hg dir content w h

/-! ### Printing -/

section Printing

variable {P : World → Prop}

lemma leaves_say (hP : OfFiles P) (line : String) : Leaves P (say line) := leaves_ask hP rfl

lemma leaves_complain (hP : OfFiles P) (line : String) : Leaves P (complain line) :=
  leaves_ask hP rfl

lemma succeeds_say (line : String) : Succeeds (say line) := succeeds_ask _

/-- What a push tells is printed, if anything is done about it. -/
lemma asks_showEvent {C : Call → Prop} (hC : ∀ channel text, C (.print channel text)) (e : Event) :
    (showEvent e).Asks C := by
  have hsay : ∀ line, (say line).Asks C := fun line => asks_ask (hC _ _)
  unfold showEvent
  split
  · exact hsay _
  · exact hsay _
  · exact asks_pure ()
  · exact asks_pure ()
  · exact hsay _
  · exact asks_ask (hC _ _)

lemma succeeds_showEvent (e : Event) : Succeeds (showEvent e) := by
  unfold showEvent
  split
  · exact succeeds_say _
  · exact succeeds_say _
  · exact succeeds_pure ()
  · exact succeeds_pure ()
  · exact succeeds_say _
  · exact succeeds_ask _

end Printing

/-! ### What is asked -/

section Asking

variable {C : Call → Prop}

lemma asks_locateFiles {files : List Path} (hfile : ∀ p ∈ files, C (.isFile p))
    (hhere : C .workingDirectory) : (locateFiles files).Asks C := by
  induction files with
  | nil => exact asks_pure []
  | cons p ps ih =>
    refine (asks_ask (hfile p (.head _))).bind fun isFile => ?_
    have hrest : (do
        let here ← Attempt.ask .workingDirectory
        return Path.absolute here p :: (← locateFiles ps) : Attempt (List Path)).Asks C :=
      (asks_ask hhere).bind fun here =>
        (ih fun p' hp' => hfile p' (.tail _ hp')).bind fun _ => asks_pure _
    split_ifs
    · exact (asks_fail _).bind fun _ => hrest
    · exact hrest

lemma asks_stageBatch (hC : ∀ c, IsOfArea root c → C c) (s : SectionAddress) (b : Batch) :
    (stageBatch ⟨root⟩ s b).Asks C := by
  have hsay : ∀ line, (say line).Asks C := fun line => asks_ask (hC _ trivial)
  refine (asks_loadArea hC).bind fun area => (asks_ofExcept _).bind fun v => ?_
  refine (asks_forM fun r _ => hsay _).bind fun _ => ?_
  exact (asks_saveArea hC _).bind fun _ => hsay _

end Asking

end PackageStaging.CommandLine
