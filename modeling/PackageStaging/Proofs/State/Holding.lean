/-
# What the state directory holds

`Holding` says which directory the state directory is and what the file of the staging area holds
in it.  Saving a staging area changes what is held, and loading gives it back (`exec_loadArea`,
`exec_saveArea`); what is done with the session leaves it as it is.
-/
import PackageStaging.Connection
import PackageStaging.Proofs.State.Files
import PackageStaging.Proofs.Wire.Persistence

namespace PackageStaging.StateDirectory

open Attempt

variable {w w' : World} {root : Path} {dir : Route} {content : Option Bytes} {a : StagingArea}

/-- The root leads to a directory in which the file of the staging area has this content. -/
structure Holding (root : Path) (dir : Route) (content : Option Bytes) (w : World) : Prop where
  enters : w.files.Enters w.here root dir
  staged : w.files.node? (place dir stagedName) = content.map .file
  draft : w.files.node? (place dir (draftName stagedName)) ≠ some .directory

lemma holding_iff : Holding root dir content w ↔ Keeping root dir stagedName content w :=
  ⟨fun h => ⟨h.enters, h.staged, h.draft⟩, fun h => ⟨h.enters, h.file, h.draft⟩⟩

lemma ofFiles_holding : OfFiles (Holding root dir content) := fun w w' hfiles hhere h =>
  holding_iff.2 (ofFiles_keeping w w' hfiles hhere (holding_iff.1 h))

lemma staged_mem : stagedName ∈ fileNames := by decide

lemma staged_kept : stagedName ∈ keptNames := .head _

lemma session_kept : sessionName ∈ keptNames := .tail _ (.head _)

/-! ### The session -/

/-- What keeps to the names of the session leaves the staging area. -/
lemma leaves_holding {α : Type} {t : Attempt α} (ht : t.KeepsTo root (namesOf sessionName)) :
    Leaves (Holding root dir content) t := fun w h =>
  holding_iff.2 (leaves_keeping ht (namesOf_subset session_kept)
    (not_mem_namesOf staged_kept session_kept (by decide)) w (holding_iff.1 h))

lemma leaves_saveSession (s : Session) :
    Leaves (Holding root dir content) (saveSession ⟨root⟩ s) :=
  leaves_holding (keepsTo_save root sessionName _)

lemma leaves_clearSession : Leaves (Holding root dir content) (clearSession ⟨root⟩) :=
  leaves_holding ((keepsTo_discard root sessionName).imp
    (Call.KeepsTo.mono (List.forall_mem_singleton.2 (.head _))))

/-- Nothing is changed by reading. -/
lemma leaves_load {α : Type} {P : World → Prop} (hP : OfFiles P) (d : StateDirectory) (n : String)
    (decode : Json.Source → Except Json.Fault α) : Leaves P (d.load n decode) := by
  refine (leaves_ask hP rfl).bind fun r => ?_
  split
  · exact (leaves_ofExcept _).bind fun a => leaves_pure _
  · exact leaves_pure none
  · exact leaves_ofExcept _

lemma leaves_authenticate {P : World → Prop} (hP : OfFiles P) (d : StateDirectory) :
    Leaves P d.authenticate := by
  have hstored : Leaves P (authenticate.stored d) := by
    refine (leaves_load hP d _ _).bind fun s => ?_
    split
    · exact leaves_pure _
    · exact leaves_fail _
  refine (leaves_ask hP rfl).bind fun token => ?_
  split
  · split_ifs
    · exact (leaves_ask hP rfl).bind fun now => leaves_pure _
    · exact hstored
  · exact hstored

/-! ### The staging area -/

/-- The calls for the staging area, which are about its file and the draft of it, and the calls that
print something. -/
def IsOfArea (root : Path) : Call → Prop
  | .readFile p | .writeFile p _ | .removeFile p => ∃ n ∈ namesOf stagedName, p = path ⟨root⟩ n
  | .replaceFile p q =>
    (∃ n ∈ namesOf stagedName, p = path ⟨root⟩ n) ∧ ∃ n ∈ namesOf stagedName, q = path ⟨root⟩ n
  | .print _ _ => True
  | _ => False

section Asking

variable {C : Call → Prop} (hC : ∀ c, IsOfArea root c → C c)

include hC

lemma asks_loadArea : (loadArea ⟨root⟩).Asks C :=
  (asks_load (hC _ ⟨stagedName, .head _, rfl⟩) _).bind fun _ => asks_pure _

lemma asks_saveArea (a : StagingArea) : (saveArea ⟨root⟩ a).Asks C := by
  have hstaged : stagedName ∈ namesOf stagedName := .head _
  have hdraft : draftName stagedName ∈ namesOf stagedName := .tail _ (.head _)
  unfold saveArea
  split_ifs
  · exact asks_discard (hC _ ⟨_, hstaged, rfl⟩)
  · exact asks_save (fun _ => hC _ ⟨_, hdraft, rfl⟩)
      (hC _ ⟨⟨_, hdraft, rfl⟩, _, hstaged, rfl⟩) _

end Asking

/-- The content of the file of a staging area; there is none for an empty one. -/
def Stored (a : StagingArea) (content : Option Bytes) : Prop :=
  if a.isEmpty then content = none
  else ∃ v, Wire.stagingAreaValue a = .ok v ∧ content = some (Utf8.encode v.prettyText)

/-- What is read from a file with this content, or from no file. -/
def loaded : Option Bytes → Except Error StagingArea
  | none => .ok .empty
  | some bytes => (Wire.decodeStagingArea (Utf8.source bytes)).mapError .json

/-- The area is the one that is read. -/
def Reads (a : StagingArea) (content : Option Bytes) : Prop := loaded content = .ok a

/-- What is stored is read. -/
lemma Stored.reads (h : Stored a content) (ha : a.WellFormed) : Reads a content := by
  unfold Stored at h
  split_ifs at h with hempty
  · rw [h, StagingArea.eq_empty_of_isEmpty hempty]
    rfl
  · obtain ⟨v, hv, rfl⟩ := h
    rw [Reads, loaded, Wire.decode_stagingArea ha hv]
    rfl

lemma Reads.decoded {bytes : Bytes} (h : Reads a (some bytes)) :
    Wire.decodeStagingArea (Utf8.source bytes) = .ok a := by
  rw [Reads, loaded] at h
  cases hdecode : Wire.decodeStagingArea (Utf8.source bytes) with
  | error f =>
    rw [hdecode] at h
    cases h
  | ok b =>
    rw [hdecode] at h
    exact congrArg Except.ok (Except.ok.inj h)

lemma Reads.wellFormed (h : Reads a content) : a.WellFormed := by
  cases content with
  | none => exact Except.ok.inj h ▸ StagingArea.wellFormed_empty
  | some bytes => exact (Wire.decodeStagingArea_eq_ok h.decoded).1

/-- What is read can be written. -/
lemma Reads.writable (h : Reads a content) : ∃ v, Wire.stagingAreaValue a = .ok v := by
  cases content with
  | none => exact Except.ok.inj h ▸ ⟨.list [], rfl⟩
  | some bytes =>
    exact Wire.stagingAreaValue_isOk_iff_text.2 (Wire.decodeStagingArea_eq_ok h.decoded).2

lemma exec_loadArea_of_enters (h : w.files.Enters w.here root dir) :
    (loadArea ⟨root⟩).exec w =
      ((readAt Wire.decodeStagingArea (w.files.node? (place dir stagedName))).map
        (·.getD .empty), w) := by
  have hload := exec_load h staged_mem Wire.decodeStagingArea
  rw [loadArea]
  cases hread : readAt Wire.decodeStagingArea (w.files.node? (place dir stagedName)) with
  | error e =>
    rw [hread] at hload
    rw [exec_bind_error hload]
    rfl
  | ok o =>
    rw [hread] at hload
    rw [exec_bind_ok hload]
    rfl

/-- Loading reads the file. -/
theorem exec_loadArea (h : Holding root dir content w) :
    (loadArea ⟨root⟩).exec w = (loaded content, w) := by
  rw [exec_loadArea_of_enters h.enters, h.staged]
  cases content with
  | none => rfl
  | some bytes =>
    simp only [loaded, readAt, Option.map_some]
    cases Wire.decodeStagingArea (Utf8.source bytes) with
    | error f => rfl
    | ok a => rfl

/-- There is room for a draft if there is no directory in its place. -/
lemma draft_of_isDirectory (henters : w.files.Enters w.here root dir)
    (hdraft : (w.answer (.isDirectory (path ⟨root⟩ (draftName stagedName)))).1 = false) :
    w.files.node? (place dir (draftName stagedName)) ≠ some .directory := by
  intro hnode
  have hthere : w.files.isDirectory w.here (path ⟨root⟩ (draftName stagedName)) = false := hdraft
  have hmem := namesOf_subset staged_kept (draftName stagedName) (.tail _ (.head _))
  rw [FileTree.isDirectory,
    FileTree.find_of_locate_directory (locate_of_enters henters hmem) hnode] at hthere
  cases hthere

/-- If an area is loaded, the file holds it. -/
theorem holding_of_load (henters : w.files.Enters w.here root dir)
    (hload : ((loadArea ⟨root⟩).exec w).1 = .ok a)
    (hdraft : (w.answer (.isDirectory (path ⟨root⟩ (draftName stagedName)))).1 = false) :
    ∃ content, Holding root dir content w ∧ Reads a content := by
  have hfile : ∃ content : Option Bytes,
      w.files.node? (place dir stagedName) = content.map .file := by
    cases hnode : w.files.node? (place dir stagedName) with
    | none => exact ⟨none, rfl⟩
    | some n =>
      cases n with
      | file bytes => exact ⟨some bytes, rfl⟩
      | directory =>
        -- a directory cannot be read
        rw [exec_loadArea_of_enters henters, hnode] at hload
        exact nomatch hload
  obtain ⟨content, hstaged⟩ := hfile
  have hholding : Holding root dir content w :=
    ⟨henters, hstaged, draft_of_isDirectory henters hdraft⟩
  rw [exec_loadArea hholding] at hload
  exact ⟨content, hholding, hload⟩

/-- A staging area that can be written is held from then on. -/
theorem exec_saveArea (h : Holding root dir content w)
    (ha : ∃ v, Wire.stagingAreaValue a = .ok v) :
    ∃ w' content', (saveArea ⟨root⟩ a).exec w = (.ok (), w') ∧ Holding root dir content' w' ∧
      Stored a content' := by
  obtain ⟨v, hv⟩ := ha
  unfold saveArea Stored
  by_cases hempty : a.isEmpty = true
  · obtain ⟨w', hrun, hafter⟩ := (holding_iff.1 h).discarded staged_kept
    exact ⟨w', none, by rw [if_pos hempty, hrun], holding_iff.2 hafter, by rw [if_pos hempty]⟩
  · obtain ⟨w', hrun, hafter⟩ := exec_save (holding_iff.1 h) staged_kept v
    refine ⟨w', _, ?_, holding_iff.2 hafter, ?_⟩
    · rw [if_neg hempty, hv, hrun]
    · rw [if_neg hempty]
      exact ⟨v, hv, rfl⟩

/-- Nothing is changed for a staging area that cannot be written. -/
theorem exec_saveArea_error (ha : ¬∃ v, Wire.stagingAreaValue a = .ok v) (d : StateDirectory)
    (w : World) : ∃ e, (saveArea d a).exec w = (.error e, w) := by
  have hempty : ¬a.isEmpty = true := by
    intro hempty
    rw [StagingArea.eq_empty_of_isEmpty hempty] at ha
    exact ha ⟨.list [], rfl⟩
  cases hv : Wire.stagingAreaValue a with
  | ok v => exact absurd ⟨v, hv⟩ ha
  | error f =>
    have hvalue : (ofExcept ((.error f : Except Json.Fault Json.Value).mapError Error.json)).exec
        w = (.error (.json f), w) := rfl
    exact ⟨.json f, by rw [saveArea, if_neg hempty, hv, save, exec_bind_error hvalue]⟩

end PackageStaging.StateDirectory
