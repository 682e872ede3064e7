/-
# Opening the state directory

A state directory that could be opened is one that its path enters; opening it again then changes
nothing (`opened_of_enters`, `enters_of_opened`).
-/
import PackageStaging.Proofs.Files.Changes
import PackageStaging.Proofs.Running
import PackageStaging.StateDirectory

namespace PackageStaging.StateDirectory

variable {w w' : World} {p root : Path} {dir : Route}

/-! ### One directory -/

lemma run_ask {α : Type} (c : Call) (f : c.Answer → Program α) (w : World) :
    (Program.ask c >>= f).run w = (f (w.answer c).1).run (w.answer c).2 := rfl

lemma find_of_enters (h : w.files.Enters w.here p dir) (hp : p.bytes ≠ []) :
    w.files.find w.here p = .ok (dir, .directory) := by
  have hway := h.way
  rw [if_neg hp] at hway
  obtain ⟨b, hb⟩ := hway
  exact FileTree.find_of_locate_directory hb h.directory

lemma makeDirectory_of_enters (h : w.files.Enters w.here p dir) (hp : p.bytes ≠ []) :
    w.files.makeDirectory w.here p = .error .alreadyExists := by
  have hway := h.way
  rw [if_neg hp] at hway
  obtain ⟨b, hb⟩ := hway
  rw [FileTree.makeDirectory, hb]
  simp only [bind, Except.bind, h.directory]

lemma enters_of_isDirectory (hp : p.bytes ≠ []) (h : w.files.isDirectory w.here p = true) :
    ∃ dir, w.files.Enters w.here p dir := by
  unfold FileTree.isDirectory at h
  split at h
  · next r hfind =>
    obtain ⟨hlocate, hnode⟩ := FileTree.find_eq_ok hfind
    exact ⟨r, hnode, by rwa [if_neg hp]⟩
  · exact nomatch h

lemma change_eq_ok_iff {r : Except SystemFault FileTree} :
    w.change r = (.ok (), w') ↔ ∃ files, r = .ok files ∧ w' = { w with files } := by
  cases r with
  | error f => simp [World.change]
  | ok files => simp [World.change, eq_comm]

lemma enters_of_makeDirectory (hp : p.bytes ≠ [])
    (h : w.answer (.makeDirectory p) = (.ok (), w')) : ∃ dir, w'.files.Enters w'.here p dir := by
  obtain ⟨t, ht, rfl⟩ := change_eq_ok_iff.1 h
  obtain ⟨target, htarget, hnone, rfl⟩ := FileTree.makeDirectory_eq_ok ht
  have hne := FileTree.not_directory_of_none hnone
  refine ⟨target.route, ?_, ?_⟩
  · rw [FileTree.node?_put_of_ne hne, if_pos rfl]
  · rw [if_neg hp]
    exact ⟨target.asDirectory, FileTree.locate_of_keeps htarget (FileTree.keeps_put hne _)⟩

/-! ### All directories on the way -/

/-- A refusal does not count if the directory is there. -/
lemma run_orThere_error (p : Path) (f : SystemFault) (w : World) :
    (makeDirectories.orThere p (.error f)).run w =
      (if w.files.isDirectory w.here p then .ok () else .error f, w) := by
  have hask : (makeDirectories.orThere p (.error f)).run w =
      (if w.files.isDirectory w.here p then Program.done (Except.ok ())
        else Program.done (Except.error f)).run w := rfl
  rw [hask]
  split_ifs
  · rfl
  · rfl

lemma enters_of_orThere (hp : p.bytes ≠ []) {r : Except SystemFault Unit}
    (hr : r = .ok () → ∃ dir, w.files.Enters w.here p dir)
    (h : (makeDirectories.orThere p r).run w = (.ok (), w')) :
    ∃ dir, w'.files.Enters w'.here p dir := by
  cases r with
  | ok u =>
    obtain ⟨-, rfl⟩ := Prod.mk.inj h
    exact hr rfl
  | error f =>
    rw [run_orThere_error] at h
    obtain ⟨hdir, rfl⟩ := Prod.mk.inj h
    split_ifs at hdir with hthere
    exact enters_of_isDirectory hp hthere

/-- The last directory that is made is the one that is asked for. -/
lemma enters_of_makeDirectories (hhere : w.files.node? w.here = some .directory) {fuel : Nat}
    (h : (makeDirectories fuel p).run w = (.ok (), w')) :
    ∃ dir, w'.files.Enters w'.here p dir := by
  cases fuel with
  | zero => exact nomatch (Prod.mk.inj h).1
  | succ fuel =>
    by_cases hp : p.bytes = []
    · rw [makeDirectories, if_pos hp] at h
      obtain ⟨-, rfl⟩ := Prod.mk.inj h
      exact ⟨w.here, hhere, by rw [if_pos hp]⟩
    · rw [makeDirectories, if_neg hp, run_ask] at h
      rcases hanswer : w.answer (.makeDirectory p) with ⟨f | u, w1⟩
      · rw [hanswer] at h
        have hother : (makeDirectories.orThere p (.error f)).run w1 = (.ok (), w') →
            ∃ dir, w'.files.Enters w'.here p dir := enters_of_orThere hp fun hok => nomatch hok
        cases f with
        | noSuchEntry =>
          -- the directory above is made first, and then this one again
          simp only at h
          split at h
          · exact nomatch (Prod.mk.inj h).1
          · next parent hparent =>
            rw [Program.bind_eq, Program.run_bind] at h
            rcases hmade : (makeDirectories fuel parent).run w1 with ⟨f | u, w2⟩
            · rw [hmade] at h
              exact nomatch (Prod.mk.inj h).1
            · rw [hmade] at h
              have hlast : (makeDirectories.orThere p (w2.answer (.makeDirectory p)).1).run
                  (w2.answer (.makeDirectory p)).2 = (.ok (), w') := h
              refine enters_of_orThere hp (fun hok => ?_) hlast
              exact enters_of_makeDirectory hp (Prod.ext hok rfl)
        | _ => exact hother h
      · rw [hanswer] at h
        obtain ⟨-, rfl⟩ := Prod.mk.inj h
        exact enters_of_makeDirectory hp hanswer

/-! ### The state directory -/

lemma exec_opened (root : Path) (w : World) :
    (opened root).exec w =
      ((((makeDirectories (root.bytes.length + 1) root).run w).1.mapError
          fun f => Error.io (.system f)).map fun _ => ⟨root⟩,
        ((makeDirectories (root.bytes.length + 1) root).run w).2) := by
  have hlift := Attempt.exec_lift (makeDirectories (root.bytes.length + 1) root) w
  rw [opened, Attempt.exec_bind_ok hlift]
  cases ((makeDirectories (root.bytes.length + 1) root).run w).1 with
  | error f => rfl
  | ok u => rfl

/-- A state directory that could be opened is there. -/
theorem enters_of_opened (hhere : w.files.node? w.here = some .directory) {d : StateDirectory}
    (h : (opened root).exec w = (.ok d, w')) :
    d = ⟨root⟩ ∧ ∃ dir, w'.files.Enters w'.here root dir := by
  rw [exec_opened] at h
  rcases hmade : (makeDirectories (root.bytes.length + 1) root).run w with ⟨f | u, w1⟩
  · rw [hmade] at h
    exact nomatch (Prod.mk.inj h).1
  · rw [hmade] at h
    obtain ⟨hd, rfl⟩ := Prod.mk.inj h
    exact ⟨(Except.ok.inj hd).symm, enters_of_makeDirectories hhere hmade⟩

/-- Nothing is done to open a state directory that is there. -/
theorem opened_of_enters (h : w.files.Enters w.here root dir) :
    (opened root).exec w = (.ok ⟨root⟩, w) := by
  have hmade : (makeDirectories (root.bytes.length + 1) root).run w = (.ok (), w) := by
    by_cases hp : root.bytes = []
    · rw [makeDirectories, if_pos hp]
      rfl
    · rw [makeDirectories, if_neg hp, run_ask]
      have hanswer : w.answer (.makeDirectory root) = (.error .alreadyExists, w) := by
        show w.change (w.files.makeDirectory w.here root) = _
        rw [makeDirectory_of_enters h hp]
        rfl
      -- the directory is there already, so the refusal does not count
      rw [hanswer]
      have hthere : w.files.isDirectory w.here root = true := by
        rw [FileTree.isDirectory, find_of_enters h hp]
      have hrun := run_orThere_error root .alreadyExists w
      rw [if_pos hthere] at hrun
      exact hrun
  rw [exec_opened, hmade]
  rfl

/-- Nothing but directories is looked up and made to open a state directory. -/
lemma ofDirectories_makeDirectories (fuel : Nat) (p : Path) :
    (makeDirectories fuel p).OfDirectories := by
  have horThere : ∀ q r, (makeDirectories.orThere q r).OfDirectories := by
    intro q r
    cases r with
    | ok u => trivial
    | error f =>
      refine ⟨trivial, fun b => ?_⟩
      cases b with
      | false => trivial
      | true => trivial
  have hask : ∀ q, (Program.ask (.makeDirectory q)).OfDirectories :=
    fun _ => ⟨trivial, fun _ => trivial⟩
  induction fuel generalizing p with
  | zero => trivial
  | succ fuel ih =>
    rw [makeDirectories]
    split_ifs
    · trivial
    · refine (hask p).bind fun r => ?_
      split
      · trivial
      · split
        · trivial
        · next parent _ =>
          refine (ih parent).bind fun r => ?_
          split
          · trivial
          · exact (hask p).bind (horThere p)
      · exact horThere p _

/-- Opening depends on nothing but the files and the working directory. -/
lemma opened_congr {w1 : World} (hsame : w.SameFiles w') {d : StateDirectory}
    (h : (opened root).exec w = (.ok d, w1)) :
    ∃ w2, (opened root).exec w' = (.ok d, w2) ∧ w1.SameFiles w2 := by
  have hmade := (ofDirectories_makeDirectories (root.bytes.length + 1) root).run_eq hsame
  rw [exec_opened] at h ⊢
  rw [hmade.1]
  obtain ⟨hd, rfl⟩ := Prod.mk.inj h
  exact ⟨_, Prod.ext hd rfl, hmade.2⟩

end PackageStaging.StateDirectory
