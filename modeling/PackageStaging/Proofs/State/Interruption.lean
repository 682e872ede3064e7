/-
# Updates that are interrupted

An update of the state directory goes through several calls, each of which may be refused, and
whoever makes them may be killed between any two.  Wherever it stops, the file that it is about
holds what it held before or the whole new content, every other file but its draft is as it was, and
so is what is loaded next, up to the new value (`update_atomic`).
-/
import PackageStaging.Proofs.State.Holding
import PackageStaging.Proofs.Wire.Sessions

namespace PackageStaging

variable {w w' : World} {p q : Path}

/-! ### One call -/

namespace World

lemma Meets.write_ok {bytes : Bytes} {a : Except SystemFault Unit}
    (h : w.Meets (.writeFile p bytes) a w') (ha : a = .ok ()) :
    w.answer (.writeFile p bytes) = (.ok (), w') := by
  cases h with
  | carriedOut => exact Prod.ext ha rfl
  | writeRefused => exact nomatch ha
  | writeCut => exact nomatch ha

lemma Meets.replace_cases {a : Except SystemFault Unit} (h : w.Meets (.replaceFile p q) a w') :
    (∃ f, a = .error f ∧ w' = w) ∨ a = .ok () ∧ w.answer (.replaceFile p q) = (.ok (), w') := by
  cases h with
  | carriedOut =>
    have hanswer : w.answer (.replaceFile p q) = w.change (w.files.replaceFile w.here p q) := rfl
    rw [hanswer]
    cases w.files.replaceFile w.here p q with
    | error f => exact .inl ⟨f, rfl, rfl⟩
    | ok files => exact .inr ⟨rfl, rfl⟩
  | replaceRefused _ _ f => exact .inl ⟨f, rfl, rfl⟩

lemma Meets.remove_cases {a : Except SystemFault Unit} (h : w.Meets (.removeFile p) a w') :
    (∃ f, f ≠ .noSuchEntry ∧ a = .error f ∧ w' = w) ∨ w.answer (.removeFile p) = (a, w') := by
  cases h with
  | carriedOut => exact .inr rfl
  | removeRefused _ hf => exact .inl ⟨_, hf, rfl, rfl⟩

end World

namespace StateDirectory

open Attempt

variable {root : Path} {dir : Route} {name : String}

/-! ### One file -/

lemma ne_ok_of_stopped {r : Option (Except Error Unit)} (h : r = none ∨ ∃ e, r = some (.error e)) :
    r ≠ some (.ok ()) := by
  rintro rfl
  rcases h with hnone | ⟨e, he⟩
  · exact nomatch hnone
  · exact nomatch Option.some.inj he

/-- Discarding a file takes all of it away, if it takes anything away at all. -/
lemma stops_discard (hw : w.files.Enters w.here root dir) (hname : name ∈ keptNames)
    {r : Option (Except Error Unit)} (h : (discard ⟨root⟩ name).Stops w r w') :
    (r ≠ some (.ok ()) ∧ w'.files.node? (place dir name) = w.files.node? (place dir name)) ∨
      w'.files.node? (place dir name) = none := by
  have hlocate := locate_of_enters hw (namesOf_subset hname name (.head _))
  rcases h.of_ask_bind with ⟨rfl, rfl⟩ | ⟨a, w₁, hmeets, hrest⟩
  · exact .inl ⟨nofun, rfl⟩
  · have hfailed : ∀ f, f ≠ .noSuchEntry → a = .error f → w₁ = w → r ≠ some (.ok ()) ∧
        w'.files.node? (place dir name) = w.files.node? (place dir name) := by
      rintro f hf rfl rfl
      have hfail : (ofSystem (.error f) : Attempt Unit).Stops w₁ r w' := by
        cases f with
        | noSuchEntry => exact absurd rfl hf
        | _ => exact hrest
      obtain ⟨rfl, hr⟩ := hfail.of_ofExcept
      exact ⟨ne_ok_of_stopped (hr.imp_right fun hr => ⟨_, hr⟩), rfl⟩
    rcases hmeets.remove_cases with ⟨f, hf, ha, hw₁⟩ | hanswer
    · exact .inl (hfailed f hf ha hw₁)
    · have hchange : w.change (w.files.removeFile w.here (path ⟨root⟩ name)) = (a, w₁) := hanswer
      cases hnode : w.files.node? (place dir name) with
      | none =>
        rw [FileTree.removeFile_of_none hlocate hnode] at hchange
        obtain ⟨rfl, rfl⟩ := Prod.mk.inj hchange
        obtain ⟨rfl, -⟩ := Stops.of_ofExcept (x := .ok ()) hrest
        exact .inr hnode
      | some x =>
        cases x with
        | directory =>
          have hremove : w.files.removeFile w.here (path ⟨root⟩ name) = .error .isADirectory := by
            rw [FileTree.removeFile, FileTree.find_of_locate_directory hlocate hnode]
            rfl
          rw [hremove] at hchange
          obtain ⟨rfl, rfl⟩ := Prod.mk.inj hchange
          rw [← hnode]
          exact .inl (hfailed .isADirectory (by simp) rfl rfl)
        | file bytes =>
          rw [FileTree.removeFile_of_locate hlocate hnode] at hchange
          obtain ⟨rfl, rfl⟩ := Prod.mk.inj hchange
          obtain ⟨rfl, -⟩ := Stops.of_ofExcept (x := .ok ()) hrest
          refine .inr ?_
          rw [FileTree.node?_remove_of_ne (FileTree.not_directory_of_file hnode), if_pos rfl]

/-- A file that takes the place of another one. -/
lemma node?_of_replaced (hw : w.files.Enters w.here root dir) (hname : name ∈ keptNames)
    {bytes : Bytes} (hdraft : w.files.node? (place dir (draftName name)) = some (.file bytes))
    (h : w.answer (.replaceFile (path ⟨root⟩ (draftName name)) (path ⟨root⟩ name)) = (.ok (), w')) :
    w'.files.node? (place dir name) = some (.file bytes) := by
  have hmem := namesOf_subset hname
  obtain ⟨files, hfiles, rfl⟩ := change_eq_ok_iff.1 h
  obtain ⟨r, b, target, bytes', hsource, hnode, htarget, hnode', rfl⟩ :=
    FileTree.replaceFile_eq_ok hfiles
  rw [locate_of_enters hw (hmem _ (.tail _ (.head _)))] at hsource
  rw [locate_of_enters hw (hmem _ (.head _))] at htarget
  cases hsource
  cases htarget
  rw [hdraft] at hnode
  rw [FileTree.node?_put_remove (FileTree.not_directory_of_file hdraft) hnode', if_pos rfl, hnode]

/-- Saving a file puts all of the document in its place, if it changes the file at all. -/
lemma stops_save (hw : w.files.Enters w.here root dir) (hname : name ∈ keptNames)
    {v : Except Json.Fault Json.Value} {r : Option (Except Error Unit)}
    (h : (save ⟨root⟩ name v).Stops w r w') :
    (r ≠ some (.ok ()) ∧ w'.files.node? (place dir name) = w.files.node? (place dir name)) ∨
      ∃ x, v = .ok x ∧
        w'.files.node? (place dir name) = some (.file (Utf8.encode x.prettyText)) := by
  have hmem := namesOf_subset hname (draftName name) (.tail _ (.head _))
  rcases h.of_ofExcept_bind with ⟨rfl, hr⟩ | ⟨x, hx, hwriting⟩
  · exact .inl ⟨ne_ok_of_stopped hr, rfl⟩
  -- while the draft is written, the file stays as it is
  rcases hwriting.of_ask_bind with ⟨rfl, rfl⟩ | ⟨a, w₁, hwrite, hwritten⟩
  · exact .inl ⟨nofun, rfl⟩
  have hspares : Spares dir [draftName name] w w₁ := hwrite.spares hw
    (fun n hn => by rwa [List.mem_singleton.1 hn]) ⟨_, .head _, rfl⟩
  have hsame : w₁.files.node? (place dir name) = w.files.node? (place dir name) :=
    hspares.node_place (by simpa using ne_draftName hname hname)
  rcases hwritten.of_ofExcept_bind with ⟨rfl, hr⟩ | ⟨u, ha, hreplacing⟩
  · exact .inl ⟨ne_ok_of_stopped hr, hsame⟩
  -- the draft is complete, and takes the place of the file or does not
  rcases hreplacing.of_ask_bind with ⟨rfl, rfl⟩ | ⟨b, w₂, hreplace, hreplaced⟩
  · exact .inl ⟨nofun, hsame⟩
  obtain ⟨rfl, hr⟩ := Stops.of_ofExcept hreplaced
  rcases hreplace.replace_cases with ⟨f, rfl, rfl⟩ | ⟨rfl, hanswer⟩
  · exact .inl ⟨ne_ok_of_stopped (hr.imp_right fun hr => ⟨_, hr⟩), hsame⟩
  · refine .inr ⟨x, mapError_eq_ok hx, ?_⟩
    refine node?_of_replaced (hspares.enters hw) hname ?_ hanswer
    obtain ⟨files, hfiles, rfl⟩ := change_eq_ok_iff.1 (hwrite.write_ok (mapError_eq_ok ha))
    obtain ⟨target, htarget, hnode, rfl⟩ := FileTree.write_eq_ok hfiles
    rw [locate_of_enters hw hmem] at htarget
    cases htarget
    rw [FileTree.node?_put_of_ne hnode, if_pos rfl]

/-! ### What is loaded -/

/-- What is loaded from a state directory. -/
structure Contents where
  area : Except Error StagingArea
  session : Except Error (Option Session)

/-- What is loaded from the state directory in a world. -/
def contents (d : StateDirectory) (w : World) : Contents :=
  ⟨((loadArea d).exec w).1, ((loadSession d).exec w).1⟩

lemma contents_of_enters (h : w.files.Enters w.here root dir) :
    contents ⟨root⟩ w =
      ⟨(readAt Wire.decodeStagingArea (w.files.node? (place dir stagedName))).map (·.getD .empty),
        readAt (Json.decode Wire.readSession) (w.files.node? (place dir sessionName))⟩ := by
  have hsession := exec_load h (namesOf_subset session_kept sessionName (.head _))
    (Json.decode Wire.readSession)
  rw [contents, exec_loadArea_of_enters h, loadSession, hsession]

/-- Nothing but the two files is read. -/
lemma contents_congr (h : w.files.Enters w.here root dir) (h' : w'.files.Enters w'.here root dir)
    (hfiles : ∀ n ∈ keptNames,
      w'.files.node? (place dir n) = w.files.node? (place dir n)) :
    contents ⟨root⟩ w' = contents ⟨root⟩ w := by
  rw [contents_of_enters h, contents_of_enters h', hfiles _ staged_kept, hfiles _ session_kept]

/-! ### Updates -/

/-- A change of the state. -/
inductive Update where
  | saveArea (a : StagingArea)
  | saveSession (s : Session)
  | clearSession

namespace Update

/-- Makes the change. -/
def perform (d : StateDirectory) : Update → Attempt Unit
  | saveArea a => d.saveArea a
  | saveSession s => d.saveSession s
  | clearSession => d.clearSession

/-- Staging can make the area, and the time of the session is a time. -/
def Valid : Update → Prop
  | saveArea a => a.WellFormed
  | saveSession s => s.issuedAt.Supported
  | clearSession => True

/-- The file that is changed. -/
def fileName : Update → String
  | saveArea _ => stagedName
  | saveSession _ | clearSession => sessionName

/-- What the file is to hold; there is none for an empty area, and none without a session. -/
def content : Update → Except Json.Fault (Option Bytes)
  | saveArea a =>
    if a.isEmpty then .ok none
    else (Wire.stagingAreaValue a).map fun v => some (Utf8.encode v.prettyText)
  | saveSession s => .ok (some (Utf8.encode (Wire.sessionValue s).prettyText))
  | clearSession => .ok none

/-- What is loaded after the change, from what was loaded before it. -/
def applied (c : Contents) : Update → Contents
  | saveArea a => { c with area := .ok a }
  | saveSession s => { c with session := .ok (some s) }
  | clearSession => { c with session := .ok none }

lemma fileName_kept (u : Update) : u.fileName ∈ keptNames := by
  cases u with
  | saveArea a => exact staged_kept
  | saveSession s => exact session_kept
  | clearSession => exact session_kept

/-- An update is a file that is saved or discarded. -/
lemma perform_cases (u : Update) (d : StateDirectory) :
    (∃ v, u.perform d = d.save u.fileName v ∧
        u.content = v.map fun x => some (Utf8.encode x.prettyText)) ∨
      u.perform d = d.discard u.fileName ∧ u.content = .ok none := by
  cases u with
  | saveArea a =>
    by_cases hempty : a.isEmpty = true
    · exact .inr ⟨if_pos hempty, if_pos hempty⟩
    · exact .inl ⟨_, if_neg hempty, if_neg hempty⟩
  | saveSession s => exact .inl ⟨_, rfl, rfl⟩
  | clearSession => exact .inr ⟨rfl, rfl⟩

variable {u : Update}

lemma read_content {a : StagingArea} (ha : a.WellFormed) {c : Option Bytes}
    (hc : (saveArea a).content = .ok c) :
    (readAt Wire.decodeStagingArea (c.map .file)).map (·.getD .empty) = .ok a := by
  rw [content] at hc
  split_ifs at hc with hempty
  · rw [← Except.ok.inj hc, StagingArea.eq_empty_of_isEmpty hempty]
    rfl
  · cases hv : Wire.stagingAreaValue a with
    | error f =>
      rw [hv] at hc
      exact nomatch hc
    | ok v =>
      rw [hv] at hc
      rw [← Except.ok.inj hc, Option.map_some, readAt, Wire.decode_stagingArea ha hv]
      rfl

/-- What the file is to hold is read as what the update is about. -/
lemma applied_of_content (hu : u.Valid) {c : Option Bytes} (hc : u.content = .ok c)
    (h : w.files.Enters w.here root dir) (h' : w'.files.Enters w'.here root dir)
    (hfile : w'.files.node? (place dir u.fileName) = c.map .file)
    (hother : ∀ n ∈ keptNames, n ≠ u.fileName →
      w'.files.node? (place dir n) = w.files.node? (place dir n)) :
    contents ⟨root⟩ w' = u.applied (contents ⟨root⟩ w) := by
  have hne : stagedName ≠ sessionName := by decide
  rw [contents_of_enters h, contents_of_enters h']
  cases u with
  | saveArea a =>
    have hstaged : w'.files.node? (place dir stagedName) = c.map .file := hfile
    rw [hother sessionName session_kept hne.symm, hstaged, read_content hu hc]
    rfl
  | saveSession s =>
    have hsession : w'.files.node? (place dir sessionName) = c.map .file := hfile
    rw [hother stagedName staged_kept hne, hsession, ← Except.ok.inj hc, Option.map_some, readAt,
      Wire.decode_session hu]
    rfl
  | clearSession =>
    have hsession : w'.files.node? (place dir sessionName) = c.map .file := hfile
    rw [hother stagedName staged_kept hne, hsession, ← Except.ok.inj hc]
    rfl

end Update

open Update

variable {u : Update}

/-- Wherever an update stops, the file that it is about and what is loaded next are as they were,
which they are not after a success, or are what the update makes of them.  All other files but the
draft are spared, and the draft is not read. -/
theorem update_atomic (hw : w.files.Enters w.here root dir) (hu : u.Valid)
    {r : Option (Except Error Unit)} (h : (u.perform ⟨root⟩).Stops w r w') :
    Spares dir (namesOf u.fileName) w w' ∧
    (r ≠ some (.ok ()) ∧
        w'.files.node? (place dir u.fileName) = w.files.node? (place dir u.fileName) ∧
        contents ⟨root⟩ w' = contents ⟨root⟩ w ∨
      ∃ c, u.content = .ok c ∧ w'.files.node? (place dir u.fileName) = c.map .file ∧
        contents ⟨root⟩ w' = u.applied (contents ⟨root⟩ w)) ∧
    ∀ v : World, v.files.Enters v.here root dir →
      (∀ n ∈ keptNames, v.files.node? (place dir n) = w'.files.node? (place dir n)) →
      contents ⟨root⟩ v = contents ⟨root⟩ w' := by
  have hkept := u.fileName_kept
  have hkeeps : (u.perform ⟨root⟩).KeepsTo root (namesOf u.fileName) := by
    rcases u.perform_cases ⟨root⟩ with ⟨v, hperform, -⟩ | ⟨hperform, -⟩
    · rw [hperform]
      exact keepsTo_save root _ v
    · rw [hperform]
      exact (keepsTo_discard root _).imp
        (Call.KeepsTo.mono (List.forall_mem_singleton.2 (.head _)))
  have hspares := h.spares hw (namesOf_subset hkept) hkeeps
  have hother : ∀ n ∈ keptNames, n ≠ u.fileName →
      w'.files.node? (place dir n) = w.files.node? (place dir n) := fun n hn hne =>
    hspares.node_place (not_mem_namesOf hn hkept hne n (.head _))
  refine ⟨hspares, ?_, fun v hv hfiles => contents_congr (hspares.enters hw) hv hfiles⟩
  -- what is loaded follows from what the file holds
  have hbefore : w'.files.node? (place dir u.fileName) = w.files.node? (place dir u.fileName) →
      contents ⟨root⟩ w' = contents ⟨root⟩ w := by
    intro hsame
    refine contents_congr hw (hspares.enters hw) fun n hn => ?_
    by_cases hne : n = u.fileName
    · rw [hne, hsame]
    · exact hother n hn hne
  have hafter := fun c hc hfile => applied_of_content (c := c) hu hc hw (hspares.enters hw) hfile
    hother
  rcases u.perform_cases ⟨root⟩ with ⟨v, hperform, hcontent⟩ | ⟨hperform, hcontent⟩
  · rw [hperform] at h
    rcases stops_save hw hkept h with ⟨hr, hsame⟩ | ⟨x, rfl, hfile⟩
    · exact .inl ⟨hr, hsame, hbefore hsame⟩
    · exact .inr ⟨_, hcontent, hfile, hafter _ hcontent hfile⟩
  · rw [hperform] at h
    rcases stops_discard hw hkept h with ⟨hr, hsame⟩ | hfile
    · exact .inl ⟨hr, hsame, hbefore hsame⟩
    · exact .inr ⟨none, hcontent, hfile, hafter none hcontent hfile⟩

/-- A session that was opened at the beginning of 1970. -/
def newcomer : Session := ⟨"ann", "token", none, ⟨0, 0⟩⟩

/-- All that is there after the first five bytes of the session is a part of its draft. -/
def cutShort : World :=
  { World.empty with
    files := FileTree.empty.put (place [] (draftName sessionName))
      (.file ((Utf8.encode (Wire.sessionValue newcomer).prettyText).take 5)) }

/-- What comes of a full disk. -/
def diskFull : SystemFault := .other 28 "No space left on device"

theorem update_atomic_cutShort :
    ((Update.saveSession newcomer).perform ⟨⟨[]⟩⟩).Stops World.empty
      (some (.error (.io (.system diskFull)))) cutShort ∧
    contents ⟨⟨[]⟩⟩ cutShort = contents ⟨⟨[]⟩⟩ World.empty := by
  have hw : World.empty.files.Enters World.empty.here ⟨[]⟩ [] := ⟨rfl, by rw [if_pos rfl]; rfl⟩
  have hlocate := locate_of_enters hw (n := draftName sessionName) (by decide)
  have hstops : ((Update.saveSession newcomer).perform ⟨⟨[]⟩⟩).Stops World.empty
      (some (.error (.io (.system diskFull)))) cutShort :=
    .call (.writeCut diskFull (FileTree.write_of_locate hlocate rfl nofun)) (.done _ _)
  have htime : newcomer.issuedAt.Supported := ⟨by decide, by decide, by decide⟩
  obtain ⟨-, hwhole, -⟩ := update_atomic (u := .saveSession newcomer) hw htime hstops
  refine ⟨hstops, ?_⟩
  rcases hwhole with ⟨-, -, hbefore⟩ | ⟨c, hc, hfile, -⟩
  · exact hbefore
  · have hnone : cutShort.files.node? (place [] sessionName) = none := by decide +kernel
    have hsome : cutShort.files.node? (place [] sessionName) = c.map .file := hfile
    rw [hnone, ← Except.ok.inj hc] at hsome
    exact nomatch hsome

end StateDirectory

end PackageStaging
