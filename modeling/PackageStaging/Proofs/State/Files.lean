/-
# The files of the state directory

Each file of the state directory has its place in the directory that the root enters.  What keeps to
some of the names (`Attempt.KeepsTo`) changes nothing else, wherever it stops (`Stops.spares`).
`Keeping` says what the file of one name holds: saving changes it, discarding takes it away, and
loading reads it (`exec_load`).
-/
import PackageStaging.Proofs.State.Opening
import PackageStaging.Proofs.Stopping
import PackageStaging.Proofs.Text.Utf8

namespace PackageStaging.StateDirectory

open Attempt

variable {w w' : World} {root : Path} {dir : Route} {content : Option Bytes} {n m name : String}

/-! ### Places -/

/-- The place of an entry of a directory. -/
def place (dir : Route) (n : String) : Route := dir ++ [Utf8.encode n]

/-- The names that are used in the state directory. -/
def fileNames : List String :=
  [stagedName, draftName stagedName, sessionName, draftName sessionName]

/-- The names of the files that are read. -/
def keptNames : List String := [stagedName, sessionName]

/-- The names that are used to save a file. -/
def namesOf (name : String) : List String := [name, draftName name]

lemma place_inj : place dir n = place dir m ↔ n = m := by
  constructor
  · intro h
    rw [place, place, List.append_cancel_left_eq, List.singleton_inj] at h
    exact Utf8.encode_injective h
  · rintro rfl
    rfl

lemma dropLast_place (dir : Route) (n : String) : (place dir n).dropLast = dir :=
  List.dropLast_concat

lemma namesOf_subset (hname : name ∈ keptNames) : ∀ n ∈ namesOf name, n ∈ fileNames := by
  have hsubset : ∀ name ∈ keptNames, ∀ n ∈ namesOf name, n ∈ fileNames := by decide
  exact hsubset name hname

lemma ne_draftName (hn : n ∈ keptNames) (hm : m ∈ keptNames) : n ≠ draftName m := by
  have hne : ∀ n ∈ keptNames, ∀ m ∈ keptNames, n ≠ draftName m := by decide
  exact hne n hn m hm

/-- The names for one file are not used for the other one. -/
lemma not_mem_namesOf (hn : n ∈ keptNames) (hm : m ∈ keptNames) (hne : n ≠ m) :
    ∀ k ∈ namesOf n, k ∉ namesOf m := by
  have hdisjoint : ∀ n ∈ keptNames, ∀ m ∈ keptNames, n ≠ m → ∀ k ∈ namesOf n, k ∉ namesOf m := by
    decide
  exact hdisjoint n hn m hm hne

lemma isName_of_mem : ∀ n ∈ fileNames, IsName (Utf8.encode n) ∧ Path.slash ∉ Utf8.encode n := by
  have hnames : ∀ n ∈ fileNames, Utf8.encode n ≠ [] ∧ Utf8.encode n ≠ [Path.dot] ∧
      Utf8.encode n ≠ [Path.dot, Path.dot] ∧
      (Utf8.encode n).length ≤ FileTree.maxNameLength ∧ Path.slash ∉ Utf8.encode n := by
    decide +kernel
  intro n hn
  obtain ⟨hnonempty, hhere, hup, hshort, hslash⟩ := hnames n hn
  exact ⟨⟨hnonempty, hhere, hup, hshort⟩, hslash⟩

/-- The files of the state directory are found in the directory that its root enters. -/
lemma locate_of_enters {t : FileTree} {here : Route} (h : t.Enters here root dir)
    (hn : n ∈ fileNames) : t.locate here (path ⟨root⟩ n) = .ok ⟨place dir n, false⟩ := by
  obtain ⟨hname, hslash⟩ := isName_of_mem n hn
  exact h.locate_entry hname hslash

/-! ### What is spared -/

/-- Nothing is different but the entries of these names. -/
structure Spares (dir : Route) (names : List String) (w w' : World) : Prop where
  here : w'.here = w.here
  keeps : w.files.Keeps w'.files
  node : ∀ r, (∀ n ∈ names, r ≠ place dir n) → w'.files.node? r = w.files.node? r

variable {names : List String}

lemma Spares.refl (dir : Route) (names : List String) (w : World) : Spares dir names w w :=
  ⟨rfl, fun _ h => h, fun _ _ => rfl⟩

lemma Spares.trans {w'' : World} (h : Spares dir names w w') (h' : Spares dir names w' w'') :
    Spares dir names w w'' where
  here := h'.here.trans h.here
  keeps := fun r hr => h'.keeps r (h.keeps r hr)
  node := fun r hr => (h'.node r hr).trans (h.node r hr)

lemma Spares.enters (h : Spares dir names w w') (hw : w.files.Enters w.here root dir) :
    w'.files.Enters w'.here root dir := by
  rw [h.here]
  exact hw.mono h.keeps

lemma Spares.node_place (h : Spares dir names w w') (hn : n ∉ names) :
    w'.files.node? (place dir n) = w.files.node? (place dir n) := by
  refine h.node _ fun m hm heq => ?_
  rw [place_inj.1 heq] at hn
  exact hn hm

lemma spares_put (hn : n ∈ names) (hnode : w.files.node? (place dir n) ≠ some .directory)
    (x : Node) : Spares dir names w { w with files := w.files.put (place dir n) x } where
  here := rfl
  keeps := FileTree.keeps_put hnode x
  node := fun r hr => by rw [FileTree.node?_put_of_ne hnode, if_neg (hr n hn).symm]

lemma spares_remove (hn : n ∈ names) (hnode : w.files.node? (place dir n) ≠ some .directory) :
    Spares dir names w { w with files := w.files.remove (place dir n) } where
  here := rfl
  keeps := FileTree.keeps_remove hnode
  node := fun r hr => by rw [FileTree.node?_remove_of_ne hnode, if_neg (hr n hn).symm]

/-- A file that takes the place of another one. -/
lemma spares_replace (hn : n ∈ names) (hm : m ∈ names)
    (hnode : w.files.node? (place dir n) ≠ some .directory)
    (hnode' : w.files.node? (place dir m) ≠ some .directory) (x : Node) :
    Spares dir names w
      { w with files := (w.files.remove (place dir n)).put (place dir m) x } where
  here := rfl
  keeps := FileTree.keeps_put_remove hnode hnode' x
  node := fun r hr => by
    rw [FileTree.node?_put_remove hnode hnode', if_neg (hr m hm).symm, if_neg (hr n hn).symm]

end StateDirectory

open StateDirectory

variable {w w' : World} {root : Path} {dir : Route} {names : List String}

/-- The call changes no file but those of these names. -/
def Call.KeepsTo (root : Path) (names : List String) : Call → Prop
  | .writeFile p _ | .removeFile p => ∃ n ∈ names, p = path ⟨root⟩ n
  | .replaceFile p q => (∃ n ∈ names, p = path ⟨root⟩ n) ∧ ∃ n ∈ names, q = path ⟨root⟩ n
  | .makeDirectory _ => False
  | _ => True

/-- A file is written where it has its place. -/
lemma spares_of_write (hw : w.files.Enters w.here root dir) (hnames : ∀ n ∈ names, n ∈ fileNames)
    {n : String} (hn : n ∈ names) {bytes : Bytes} {files : FileTree}
    (h : w.files.write w.here (path ⟨root⟩ n) bytes = .ok files) :
    Spares dir names w { w with files } := by
  obtain ⟨target, htarget, hnode, rfl⟩ := FileTree.write_eq_ok h
  rw [locate_of_enters hw (hnames n hn)] at htarget
  cases htarget
  exact spares_put hn hnode _

lemma Call.KeepsTo.mono {names' : List String} (h : ∀ n ∈ names, n ∈ names') :
    ∀ c : Call, c.KeepsTo root names → c.KeepsTo root names'
  | .writeFile _ _, hc | .removeFile _, hc => hc.imp fun n hn => ⟨h n hn.1, hn.2⟩
  | .replaceFile _ _, hc =>
    ⟨hc.1.imp fun n hn => ⟨h n hn.1, hn.2⟩, hc.2.imp fun n hn => ⟨h n hn.1, hn.2⟩⟩
  | .makeDirectory _, hc => hc.elim
  | .readFile _, _ | .isDirectory _, _ | .isFile _, _ | .size _, _ | .workingDirectory, _
  | .environment _, _ | .now, _ | .print _ _, _ | .prompt _ _, _ | .send _, _ => trivial

/-- Whatever a call meets with, it spares what it does not name. -/
lemma World.Meets.spares {c : Call} {a : c.Answer} (h : w.Meets c a w')
    (hw : w.files.Enters w.here root dir) (hnames : ∀ n ∈ names, n ∈ fileNames)
    (hc : c.KeepsTo root names) : Spares dir names w w' := by
  have hchange : ∀ r, (∀ files, r = .ok files → Spares dir names w { w with files }) →
      Spares dir names w (w.change r).2 := by
    intro r hr
    cases r with
    | ok files => exact hr files rfl
    | error f => exact .refl dir names w
  cases h with
  | carriedOut =>
    cases c with
    | writeFile p content =>
      obtain ⟨n, hn, rfl⟩ := hc
      exact hchange _ fun files hfiles => spares_of_write hw hnames hn hfiles
    | removeFile p =>
      obtain ⟨n, hn, rfl⟩ := hc
      refine hchange _ fun files hfiles => ?_
      obtain ⟨r, b, htarget, hnode, rfl⟩ := FileTree.removeFile_eq_ok hfiles
      rw [locate_of_enters hw (hnames n hn)] at htarget
      cases htarget
      exact spares_remove hn hnode
    | replaceFile p q =>
      obtain ⟨⟨n, hn, rfl⟩, m, hm, rfl⟩ := hc
      refine hchange _ fun files hfiles => ?_
      obtain ⟨r, b, target, bytes, hsource, hnode, htarget, hnode', rfl⟩ :=
        FileTree.replaceFile_eq_ok hfiles
      rw [locate_of_enters hw (hnames n hn)] at hsource
      rw [locate_of_enters hw (hnames m hm)] at htarget
      cases hsource
      cases htarget
      exact spares_replace hn hm (FileTree.not_directory_of_file hnode) hnode' _
    | makeDirectory p => exact hc.elim
    | print channel text =>
      cases channel with
      | standard => exact ⟨rfl, fun _ h => h, fun _ _ => rfl⟩
      | diagnostic => exact ⟨rfl, fun _ h => h, fun _ _ => rfl⟩
    | _ => exact ⟨rfl, fun _ h => h, fun _ _ => rfl⟩
  | writeRefused => exact .refl dir names w
  | writeCut f hfiles =>
    obtain ⟨n, hn, rfl⟩ := hc
    exact spares_of_write hw hnames hn hfiles
  | replaceRefused => exact .refl dir names w
  | removeRefused => exact .refl dir names w

/-- Wherever a program stops, it has spared what it does not name. -/
theorem Program.Stops.spares {α : Type} {p : Program α} {r : Option α} (h : p.Stops w r w')
    (hw : w.files.Enters w.here root dir) (hnames : ∀ n ∈ names, n ∈ fileNames)
    (hp : p.Asks (Call.KeepsTo root names)) : Spares dir names w w' := by
  induction h with
  | killed p w => exact .refl dir names w
  | done a w => exact .refl dir names w
  | call hc _ ih =>
    have hfirst := hc.spares hw hnames hp.1
    exact hfirst.trans (ih (hfirst.enters hw) (hp.2 _))

namespace Attempt

variable {α : Type} {t : Attempt α}

/-- The attempt changes no files but those of these names. -/
abbrev KeepsTo (root : Path) (names : List String) (t : Attempt α) : Prop :=
  Asks (Call.KeepsTo root names) t

lemma Stops.spares {r : Option (Except Error α)} (h : t.Stops w r w')
    (hw : w.files.Enters w.here root dir) (hnames : ∀ n ∈ names, n ∈ fileNames)
    (ht : t.KeepsTo root names) : Spares dir names w w' :=
  Program.Stops.spares h hw hnames ht

end Attempt

namespace StateDirectory

open Attempt

variable {content : Option Bytes} {n name : String}

section Asking

variable {C : Call → Prop} {d : StateDirectory}

lemma asks_load {α : Type} (hread : C (.readFile (d.path name)))
    (decode : Json.Source → Except Json.Fault α) : (d.load name decode).Asks C := by
  refine (asks_ask hread).bind fun r => ?_
  split
  · exact (asks_ofExcept _).bind fun a => asks_pure _
  · exact asks_pure none
  · exact asks_ofExcept _

lemma asks_save (hwrite : ∀ bytes, C (.writeFile (d.path (draftName name)) bytes))
    (hreplace : C (.replaceFile (d.path (draftName name)) (d.path name)))
    (v : Except Json.Fault Json.Value) : (d.save name v).Asks C := by
  refine (asks_ofExcept _).bind fun v => ?_
  refine (asks_ask (hwrite _)).bind fun r => ?_
  refine (asks_ofExcept _).bind fun _ => ?_
  refine (asks_ask hreplace).bind fun r => ?_
  exact asks_ofExcept _

lemma asks_discard (hremove : C (.removeFile (d.path name))) : (d.discard name).Asks C := by
  refine (asks_ask hremove).bind fun r => ?_
  split
  · exact asks_ofExcept _
  · exact asks_ofExcept _
  · exact asks_ofExcept _

end Asking

lemma keepsTo_save (root : Path) (name : String) (v : Except Json.Fault Json.Value) :
    (save ⟨root⟩ name v).KeepsTo root (namesOf name) :=
  have hname : name ∈ namesOf name := .head _
  have hdraft : draftName name ∈ namesOf name := .tail _ (.head _)
  asks_save (fun _ => ⟨_, hdraft, rfl⟩) ⟨⟨_, hdraft, rfl⟩, _, hname, rfl⟩ v

lemma keepsTo_discard (root : Path) (name : String) :
    (discard ⟨root⟩ name).KeepsTo root [name] :=
  asks_discard ⟨name, .head _, rfl⟩

/-! ### Loading -/

/-- What is read at a place, if there is a file at all; a directory cannot be read. -/
def readAt {α : Type} (decode : Json.Source → Except Json.Fault α) :
    Option Node → Except Error (Option α)
  | none => .ok none
  | some (.file bytes) => ((decode (Utf8.source bytes)).mapError .json).map some
  | some .directory => .error (.io (.system .isADirectory))

lemma not_directory_of_readAt {α : Type} {decode : Json.Source → Except Json.Fault α}
    {node : Option Node} {o : Option α} (h : readAt decode node = .ok o) :
    node ≠ some .directory := by
  rintro rfl
  cases h

/-- Loading changes nothing and depends on nothing but what is at the place of the file. -/
theorem exec_load {α : Type} (h : w.files.Enters w.here root dir) (hn : n ∈ fileNames)
    (decode : Json.Source → Except Json.Fault α) :
    (load ⟨root⟩ n decode).exec w = (readAt decode (w.files.node? (place dir n)), w) := by
  have hlocate := locate_of_enters h hn
  have hread : w.answer (.readFile (path ⟨root⟩ n)) =
      (w.files.read w.here (path ⟨root⟩ n), w) := rfl
  rw [load, exec_ask_bind, hread]
  cases hnode : w.files.node? (place dir n) with
  | none =>
    rw [FileTree.read_of_none hlocate hnode]
    rfl
  | some x =>
    cases x with
    | directory =>
      rw [FileTree.read, FileTree.find_of_locate_directory hlocate hnode]
      rfl
    | file bytes =>
      rw [FileTree.read_of_locate hlocate hnode]
      show (ofExcept ((decode (Utf8.source bytes)).mapError Error.json) >>=
        fun a => pure (some a)).exec w = _
      rw [readAt]
      cases decode (Utf8.source bytes) with
      | error f => rfl
      | ok a => rfl

/-! ### What a file holds -/

/-- The root leads to a directory in which the file of this name has this content, and there is
room for a draft of it. -/
structure Keeping (root : Path) (dir : Route) (name : String) (content : Option Bytes)
    (w : World) : Prop where
  enters : w.files.Enters w.here root dir
  file : w.files.node? (place dir name) = content.map .file
  draft : w.files.node? (place dir (draftName name)) ≠ some .directory

lemma ofFiles_keeping : OfFiles (Keeping root dir name content) := by
  intro w w' hfiles hhere h
  exact ⟨by rw [hfiles, hhere]; exact h.enters, by rw [hfiles]; exact h.file,
    by rw [hfiles]; exact h.draft⟩

lemma Keeping.not_directory (h : Keeping root dir name content w) :
    w.files.node? (place dir name) ≠ some .directory := by
  rw [h.file]
  cases content with
  | none => simp
  | some old => simp

/-- What changes none of the names of the file leaves what it holds. -/
lemma Keeping.spared (h : Keeping root dir name content w) (hs : Spares dir names w w')
    (hnames : ∀ n ∈ namesOf name, n ∉ names) : Keeping root dir name content w' where
  enters := hs.enters h.enters
  file := (hs.node_place (hnames name (.head _))).trans h.file
  draft := by
    rw [hs.node_place (hnames (draftName name) (.tail _ (.head _)))]
    exact h.draft

lemma leaves_keeping {α : Type} {t : Attempt α} (ht : t.KeepsTo root names)
    (hnames : ∀ n ∈ names, n ∈ fileNames) (hname : ∀ n ∈ namesOf name, n ∉ names) :
    Leaves (Keeping root dir name content) t := fun w h =>
  h.spared ((stops_exec t w).spares h.enters hnames ht) hname

/-- There is no file afterwards. -/
lemma exec_discard (h : w.files.Enters w.here root dir) (hname : name ∈ fileNames)
    (hnode : w.files.node? (place dir name) ≠ some .directory) :
    ∃ w', (discard ⟨root⟩ name).exec w = (.ok (), w') ∧
      w'.files.node? (place dir name) = none := by
  have hlocate := locate_of_enters h hname
  rw [discard, exec_ask_bind]
  cases hthere : w.files.node? (place dir name) with
  | none =>
    have hremove : w.answer (.removeFile (path ⟨root⟩ name)) = (.error .noSuchEntry, w) := by
      show w.change (w.files.removeFile w.here _) = _
      rw [FileTree.removeFile_of_none hlocate hthere]
      rfl
    exact ⟨w, by rw [hremove]; rfl, hthere⟩
  | some x =>
    cases x with
    | directory => exact absurd hthere hnode
    | file bytes =>
      have hremove : w.answer (.removeFile (path ⟨root⟩ name)) =
          (.ok (), { w with files := w.files.remove (place dir name) }) :=
        change_eq_ok_iff.2 ⟨_, FileTree.removeFile_of_locate hlocate hthere, rfl⟩
      refine ⟨_, by rw [hremove]; rfl, ?_⟩
      rw [FileTree.node?_remove_of_ne hnode, if_pos rfl]

lemma Keeping.discarded (h : Keeping root dir name content w) (hname : name ∈ keptNames) :
    ∃ w', (discard ⟨root⟩ name).exec w = (.ok (), w') ∧ Keeping root dir name none w' := by
  have hmem := namesOf_subset hname name (.head _)
  obtain ⟨w', hrun, hnone⟩ := exec_discard h.enters hmem h.not_directory
  have hspares := (stops_exec (discard ⟨root⟩ name) w).spares h.enters
    (fun n hn => by rwa [List.mem_singleton.1 hn]) (keepsTo_discard root name)
  rw [hrun] at hspares
  refine ⟨w', hrun, hspares.enters h.enters, hnone, ?_⟩
  rw [hspares.node_place (by simpa using (ne_draftName hname hname).symm)]
  exact h.draft

/-- A document is written as a draft, which then takes the place of the file. -/
lemma exec_save (h : Keeping root dir name content w) (hname : name ∈ keptNames)
    (v : Json.Value) :
    ∃ w', (save ⟨root⟩ name (.ok v)).exec w = (.ok (), w') ∧
      Keeping root dir name (some (Utf8.encode v.prettyText)) w' := by
  have hmem := namesOf_subset hname
  have hne := ne_draftName hname hname
  set bytes := Utf8.encode v.prettyText
  set files := w.files.put (place dir (draftName name)) (.file bytes) with hfiles
  have hwrite : w.answer (.writeFile (path ⟨root⟩ (draftName name)) bytes) =
      (.ok (), { w with files }) := by
    refine change_eq_ok_iff.2 ⟨_, FileTree.write_of_locate
      (locate_of_enters h.enters (hmem _ (.tail _ (.head _)))) ?_ h.draft, rfl⟩
    rw [dropLast_place]
    exact h.enters.directory
  have henters : files.Enters w.here root dir := h.enters.mono (FileTree.keeps_put h.draft _)
  have hnode : files.node? (place dir (draftName name)) = some (.file bytes) := by
    rw [hfiles, FileTree.node?_put_of_ne h.draft, if_pos rfl]
  have hdraft := FileTree.not_directory_of_file hnode
  have hold : files.node? (place dir name) ≠ some .directory := by
    rw [hfiles, FileTree.node?_put_of_ne h.draft, if_neg (place_inj.not.2 hne.symm)]
    exact h.not_directory
  set replaced := (files.remove (place dir (draftName name))).put (place dir name)
    (.file bytes) with hreplaced
  -- the draft is a file now, and the place of the old file is still no directory
  have hreplace : World.answer { w with files }
      (.replaceFile (path ⟨root⟩ (draftName name)) (path ⟨root⟩ name)) =
      (.ok (), { w with files := replaced }) := by
    refine change_eq_ok_iff.2 ⟨_, FileTree.replaceFile_of_locate
      (locate_of_enters henters (hmem _ (.tail _ (.head _)))) hnode
      (locate_of_enters henters (hmem _ (.head _))) ?_ hold, rfl⟩
    rw [dropLast_place]
    exact henters.directory
  -- afterwards the file has the content of the draft, and the draft is gone
  refine ⟨{ w with files := replaced }, ?_,
    henters.mono (FileTree.keeps_put_remove hdraft hold (.file bytes)), ?_, ?_⟩
  · have hvalue : (ofExcept ((.ok v : Except Json.Fault Json.Value).mapError Error.json)).exec w =
        (.ok v, w) := rfl
    rw [save, exec_bind_ok hvalue, exec_ask_bind, hwrite]
    have hok : ∀ w, (ofSystem (.ok () : Except SystemFault Unit)).exec w = (.ok (), w) :=
      fun _ => rfl
    rw [exec_bind_ok (hok _), exec_ask_bind, hreplace, hok]
  · rw [hreplaced, FileTree.node?_put_remove hdraft hold, if_pos rfl]
    rfl
  · rw [hreplaced, FileTree.node?_put_remove hdraft hold, if_neg (place_inj.not.2 hne), if_pos rfl]
    simp

end StateDirectory

end PackageStaging
