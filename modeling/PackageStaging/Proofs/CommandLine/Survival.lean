/-
# What becomes of a staged operation

Processes take turns on one state directory.  An operation that one of them has staged is in the
staging area from then on, or part of a payload that the server has accepted, if every command
that saves the area later leaves the operation alone and has also loaded the area later
(`staged_survives`).  The invariant (`Scene.Survives`) is about the file and about the areas that
have been loaded since.  A command that has loaded the area before may save it without the
operation (`staged_is_lost`).
-/
import PackageStaging.Proofs.CommandLine.Interleaving

namespace PackageStaging.CommandLine

open Attempt StateDirectory

variable {root : Path} {content : Option Bytes} {w w' : World} {a b : StagingArea} {p : Process}
  {work : Work} {progress progress' : Progress} {saves : List Save} {i k : Nat}
  {processes : Nat → Process} {scene : Scene} {s : SectionAddress} {n : String} {op : Operation}

/-! ### Processes that take turns are sound -/

lemma Progress.Move.onward (m : Move root p k progress w progress' w') : Onward root w w' := by
  cases m with
  | passDone | passFailed | load => exact (KeepsFile.refl w).onward
  | fail e hkeeps => exact hkeeps.onward
  | finish hp hkeeps => exact hkeeps.onward
  | enter h hkeeps => exact hkeeps.onward
  | decide hdecides hkeeps => exact hkeeps.onward
  | leave hp hkeeps => exact hkeeps.onward
  | save hopen hstored hrequests =>
    exact ⟨fun _ => ⟨_, hopen.hasFile⟩, fun _ => ⟨_, hopen⟩, hrequests⟩
  | complete hkeeps => exact hkeeps.onward

lemma Underway.mono {d : StateDirectory} (h : Underway root p d work w) (hw : Onward root w w') :
    Underway root p d work w' :=
  ⟨h.directory, h.keyed, h.does, hw.isOpen h.isOpen⟩

/-- What is true of a process stays true while it is the turn of others. -/
lemma Progress.Sound.mono (h : progress.Sound root p i saves w) (hw : Onward root w w')
    (more : List Save) : progress.Sound root p i (saves ++ more) w' := by
  have hlength : saves.length ≤ (saves ++ more).length := by simp
  cases progress with
  | waiting | failed => trivial
  | ready d work => exact Underway.mono h hw
  | loaded d work since a => exact ⟨h.1.mono hw, h.2.1, h.2.2.trans hlength⟩
  | decided d work since a decision =>
    obtain ⟨hunderway, ha, hsince, hmakes, hpublished, hrest⟩ := h
    exact ⟨hunderway.mono hw, ha, hsince.trans hlength, hmakes,
      fun hwork => (hpublished hwork).mono hw.requests, hrest⟩
  | saved rest =>
    obtain ⟨hopen, hrest, save, hsave, hi⟩ := h
    exact ⟨hw.isOpen hopen, hrest, save, List.mem_append_left _ hsave, hi⟩
  | done =>
    intro hp
    obtain ⟨save, hsave, hi⟩ := h hp
    exact ⟨save, List.mem_append_left _ hsave, hi⟩

/-- What is true of a process is true after its move. -/
lemma Progress.Move.sound (m : Move root p saves.length progress w progress' w')
    (h : progress.Sound root p i saves w) :
    progress'.Sound root p i (saves ++ progress.saving i progress') w' := by
  have hmono := h.mono m.onward (progress.saving i progress')
  cases m with
  | passDone | passFailed => exact hmono
  | fail => trivial
  | finish hp => exact fun hstaging => absurd hstaging (by simp [hp])
  | enter hunderway => exact hunderway
  | load hopen ha => exact ⟨hmono, ha.wellFormed, by simp⟩
  | decide hdecides => exact ⟨hmono.1, hmono.2.1, hmono.2.2, hdecides⟩
  | leave hp => exact fun hstaging => absurd hstaging (by simp [hp])
  | save hopen =>
    obtain ⟨-, -, -, -, -, hrest⟩ := hmono
    exact ⟨⟨_, hopen⟩, hrest, _, List.mem_append_right _ (.head _), rfl⟩
  | complete => exact fun _ => hmono.2.2

/-- A process saves nothing but what it has decided. -/
lemma Progress.saving_cases {save : Save} (h : save ∈ progress.saving i progress') :
    ∃ d a decision rest, progress = .decided d save.work save.since a decision ∧
      progress' = .saved rest ∧ save.process = i ∧ progress.saving i progress' = [save] := by
  unfold saving at h
  split at h
  · next d work since a decision rest =>
    obtain rfl := List.mem_singleton.1 h
    exact ⟨d, a, decision, rest, rfl, rfl, rfl, rfl⟩
  · exact absurd h List.not_mem_nil

/-- What is true of the processes and of the world in which they take turns. -/
structure Scene.Sound (root : Path) (processes : Nat → Process) (scene : Scene) : Prop where
  hasFile : ∃ content, HasFile root content scene.world
  progress : ∀ i, (scene.progress i).Sound root (processes i) i scene.saves scene.world
  saves : ∀ save ∈ scene.saves, (processes save.process).Does save.work

namespace Scene

lemma sound_start (h : HasFile root content w) : (start w).Sound root processes :=
  ⟨⟨content, h⟩, fun _ => trivial, fun _ hsave => absurd hsave List.not_mem_nil⟩

/-- The turn of a process is a move of it, and all others stay as they are. -/
lemma Sound.moves (h : scene.Sound root processes)
    (hroot : ∀ i, (processes i).config.stateDirectory = root) (i : Nat) :
    Progress.Move root (processes i) scene.saves.length (scene.progress i) scene.world
      ((scene.turn processes i).progress i) (scene.turn processes i).world := by
  have hmoves := moves_block (hroot i) h.hasFile (h.progress i)
  rw [turn]
  simp only [Function.update_self]
  exact hmoves

lemma turn_progress_of_ne {j : Nat} (h : j ≠ i) :
    (scene.turn processes i).progress j = scene.progress j :=
  Function.update_of_ne h _ _

lemma turn_saves (processes : Nat → Process) (scene : Scene) (i : Nat) :
    (scene.turn processes i).saves =
      scene.saves ++ (scene.progress i).saving i ((scene.turn processes i).progress i) := by
  simp only [turn, Function.update_self]

lemma Sound.turn (h : scene.Sound root processes)
    (hroot : ∀ i, (processes i).config.stateDirectory = root) (i : Nat) :
    (scene.turn processes i).Sound root processes := by
  have m := h.moves hroot i
  refine ⟨m.onward.hasFile h.hasFile, fun j => ?_, fun save hsave => ?_⟩
  · rw [turn_saves]
    by_cases hj : j = i
    · subst hj
      exact m.sound (h.progress j)
    · rw [turn_progress_of_ne hj]
      exact (h.progress j).mono m.onward _
  · rw [turn_saves] at hsave
    rcases List.mem_append.1 hsave with hsave | hsave
    · exact h.saves save hsave
    · obtain ⟨d, a, decision, rest, hdecided, -, rfl, -⟩ := Progress.saving_cases hsave
      have hi := h.progress save.process
      rw [hdecided] at hi
      exact hi.1.does

lemma Sound.meanwhile (h : scene.Sound root processes) (hw : Onward root scene.world w) :
    Sound root processes { scene with world := w } where
  hasFile := hw.hasFile h.hasFile
  progress j := by simpa using (h.progress j).mono hw []
  saves := h.saves

end Scene

/-! ### One operation -/

/-- The work neither replaces nor unstages what is staged for a package of a section. -/
def Work.Spares (s : SectionAddress) (n : String) : Work → Prop
  | .stage s' batch => s' = s → n ∉ batch.names
  | .unstage s' names => s' = s → names ≠ [] ∧ n ∉ names
  | .clear => False
  | .status | .push => True

/-- Work that spares a package leaves what is staged for it, unless all is published. -/
lemma Work.Makes.plan_eq (h : work.Makes a b) (ha : a.WellFormed) (hwork : work.Spares s n)
    (hpush : work ≠ .push) : b.plan s n = a.plan s n := by
  cases work with
  | stage s' batch =>
    obtain ⟨k, log, hk, hb⟩ := h
    rw [(StagingArea.plan_restage ha hk hb).2, Plan.withBatch]
    split_ifs with hs
    · have hnone : batch.operation? n = none := by
        rw [← Option.not_isSome_iff_eq_none, Batch.operation?_isSome_iff]
        exact hwork hs.symm
      rw [hnone, Option.none_or]
    · rfl
  | unstage s' names =>
    obtain ⟨⟨k, hk⟩, hb⟩ := h
    rw [plan_unstaged ha hk hb]
    split_ifs with hnames
    · rw [Plan.withoutSection, if_neg fun hs => (hwork hs.symm).1 hnames]
    · rw [Plan.without, if_neg fun hs => (hwork hs.1.symm).2 hs.2]
  | clear => exact hwork.elim
  | status => exact congrArg (fun c => c.plan s n) h
  | push => exact absurd rfl hpush

/-- The operation was part of a payload that has been accepted. -/
def Submitted (s : SectionAddress) (n : String) (op : Operation) (w : World) : Prop :=
  ∃ c, w.Published c ∧ c.plan s n = some op

/-- The operation is in the file of the staging area. -/
def InFile (root : Path) (s : SectionAddress) (n : String) (op : Operation) (w : World) : Prop :=
  ∃ content a, IsOpen root content w ∧ Reads a content ∧ a.plan s n = some op

lemma Submitted.mono (h : Submitted s n op w) (hw : Onward root w w') : Submitted s n op w' := by
  obtain ⟨c, hc, hop⟩ := h
  exact ⟨c, hc.mono hw.requests, hop⟩

lemma InFile.mono (h : InFile root s n op w) (hw : KeepsFile root w w') :
    InFile root s n op w' := by
  obtain ⟨content, a, hopen, ha, hop⟩ := h
  exact ⟨content, a, hw.isOpen content hopen, ha, hop⟩

/-- What is loaded is in the file. -/
lemma InFile.plan_eq (h : InFile root s n op w) (hopen : IsOpen root content w)
    (ha : Reads a content) : a.plan s n = some op := by
  obtain ⟨content', b, hopen', hb, hop⟩ := h
  have hcontent : loaded content = loaded content' :=
    (Prod.mk.inj (hopen.load.symm.trans hopen'.load)).1
  obtain rfl : a = b := Except.ok.inj (ha.symm.trans (hcontent.trans hb))
  exact hop

/-- The operation is in every area that was loaded after more than `k` saves. -/
def Progress.Knows (k : Nat) (s : SectionAddress) (n : String) (op : Operation) : Progress → Prop
  | .loaded _ _ since a | .decided _ _ since a _ => k < since → a.plan s n = some op
  | _ => True

/-- Nobody has loaded the area after a save that has not been made yet. -/
lemma Progress.Sound.knows (h : progress.Sound root p i saves w) :
    progress.Knows saves.length s n op := by
  cases progress with
  | loaded d work since a =>
    obtain ⟨-, -, hsince⟩ := h
    exact fun hlater => absurd hlater (Nat.not_lt.2 hsince)
  | decided d work since a decision =>
    obtain ⟨-, -, hsince, -⟩ := h
    exact fun hlater => absurd hlater (Nat.not_lt.2 hsince)
  | _ => trivial

/-- These saves spare a package, and are of areas that were loaded after more than `k` saves. -/
def Spared (k : Nat) (s : SectionAddress) (n : String) (saves : List Save) : Prop :=
  ∀ save ∈ saves, k < save.since ∧ save.work.Spares s n

/-- An operation that is in the file is in it after a move, or has been submitted. -/
lemma Progress.Move.survives (m : Move root p saves.length progress w progress' w')
    (hsound : progress.Sound root p i saves w) (h : InFile root s n op w)
    (hknows : progress.Knows k s n op) (hspared : Spared k s n (progress.saving i progress')) :
    Submitted s n op w' ∨ InFile root s n op w' ∧ progress'.Knows k s n op := by
  cases m with
  | passDone | passFailed => exact .inr ⟨h, trivial⟩
  | fail e hkeeps => exact .inr ⟨h.mono hkeeps, trivial⟩
  | finish hp hkeeps => exact .inr ⟨h.mono hkeeps, trivial⟩
  | enter hunderway hkeeps => exact .inr ⟨h.mono hkeeps, trivial⟩
  | load hopen ha => exact .inr ⟨h, fun _ => h.plan_eq hopen ha⟩
  | decide hdecides hkeeps => exact .inr ⟨h.mono hkeeps, hknows⟩
  | leave hp hkeeps => exact .inr ⟨h.mono hkeeps, trivial⟩
  | @save work since a decision content w w' hopen hstored hrequests =>
    obtain ⟨-, ha, -, hmakes, hpublished, -⟩ := hsound
    obtain ⟨hsince, hspares⟩ := hspared _ (.head _)
    have hop : a.plan s n = some op := hknows hsince
    by_cases hpush : work = .push
    · exact .inl ⟨a, (hpublished hpush).mono hrequests, hop⟩
    · have hreads : Reads decision.area content := hstored.reads (hmakes.wellFormed ha)
      refine .inr ⟨⟨content, decision.area, hopen, hreads, ?_⟩, trivial⟩
      rw [hmakes.plan_eq ha hspares hpush, hop]
  | complete hkeeps => exact .inr ⟨h.mono hkeeps, trivial⟩

/-! ### All operations -/

namespace Scene

/-- The operation has been submitted, or is in the file and in every area that was loaded after more
than `k` saves. -/
def Survives (root : Path) (k : Nat) (s : SectionAddress) (n : String) (op : Operation)
    (scene : Scene) : Prop :=
  Submitted s n op scene.world ∨
    InFile root s n op scene.world ∧ ∀ j, (scene.progress j).Knows k s n op

lemma Survives.turn (h : scene.Survives root k s n op) (hsound : scene.Sound root processes)
    (hroot : ∀ i, (processes i).config.stateDirectory = root) (i : Nat)
    (hspared : Spared k s n
      ((scene.progress i).saving i ((scene.turn processes i).progress i))) :
    (scene.turn processes i).Survives root k s n op := by
  have m := hsound.moves hroot i
  rcases h with hsubmitted | ⟨hfile, hknows⟩
  · exact .inl (hsubmitted.mono m.onward)
  · refine (m.survives (hsound.progress i) hfile (hknows i) hspared).imp_right ?_
    rintro ⟨hfile', hi⟩
    refine ⟨hfile', fun j => ?_⟩
    by_cases hj : j = i
    · exact hj ▸ hi
    · rw [turn_progress_of_ne hj]
      exact hknows j

/-- An operation survives the save that stages it. -/
lemma survives_of_save (hsound : scene.Sound root processes)
    (hroot : ∀ i, (processes i).config.stateDirectory = root) (i : Nat) {save : Save}
    (hsave : save ∈ (scene.progress i).saving i ((scene.turn processes i).progress i))
    {batch : Batch} (hwork : save.work = .stage s batch) (hop : batch.operation? n = some op) :
    (scene.turn processes i).Survives root scene.saves.length s n op := by
  have m := hsound.moves hroot i
  have hi := hsound.progress i
  obtain ⟨d, a, decision, rest, hbefore, hafter, -, -⟩ := Progress.saving_cases hsave
  rw [hbefore] at m hi
  rw [hafter] at m
  obtain ⟨-, ha, -, ⟨hmakes, -, -⟩⟩ := hi
  rw [hwork] at hmakes
  obtain ⟨key, log, hkey, hrestage⟩ := hmakes
  obtain ⟨hwf, hplan⟩ := StagingArea.plan_restage ha hkey hrestage
  refine .inr ⟨?_, fun j => ?_⟩
  · cases m with
    | save hopen hstored hrequests =>
      refine ⟨_, decision.area, hopen, hstored.reads hwf, ?_⟩
      rw [hplan, Plan.withBatch, if_pos rfl, hop, Option.some_or]
  · by_cases hj : j = i
    · rw [hj, hafter]
      trivial
    · rw [turn_progress_of_ne hj]
      exact (hsound.progress j).knows

/-- What every save has staged survives if it is spared by all later ones. -/
def Safe (root : Path) (scene : Scene) : Prop :=
  ∀ before save after s batch n op, scene.saves = before ++ save :: after →
    save.work = .stage s batch → batch.operation? n = some op → Spared before.length s n after →
      scene.Survives root before.length s n op

lemma Safe.turn (h : scene.Safe root) (hsound : scene.Sound root processes)
    (hroot : ∀ i, (processes i).config.stateDirectory = root) (i : Nat) :
    (scene.turn processes i).Safe root := by
  intro before save after s batch n op hsaves hwork hop hspared
  rw [turn_saves] at hsaves
  rcases hnews : (scene.progress i).saving i ((scene.turn processes i).progress i) with
    _ | ⟨new, news⟩
  · rw [hnews, List.append_nil] at hsaves
    refine (h before save after s batch n op hsaves hwork hop hspared).turn hsound hroot i ?_
    rw [hnews]
    exact fun save hsave => absurd hsave List.not_mem_nil
  · have hnew : new ∈ (scene.progress i).saving i ((scene.turn processes i).progress i) :=
      hnews ▸ .head _
    obtain ⟨-, -, -, -, -, -, -, hone⟩ := Progress.saving_cases hnew
    rw [hone] at hsaves
    -- the operation is staged by this very save, or by one before it
    rcases List.eq_nil_or_concat after with rfl | ⟨between, last, rfl⟩
    · obtain ⟨rfl, hsame⟩ := List.append_inj' hsaves rfl
      obtain rfl := List.singleton_inj.1 hsame
      exact survives_of_save hsound hroot i hnew hwork hop
    · rw [List.concat_eq_append] at hsaves hspared
      rw [← List.cons_append, ← List.append_assoc] at hsaves
      obtain ⟨hbefore, hsame⟩ := List.append_inj' hsaves rfl
      obtain rfl := List.singleton_inj.1 hsame
      have hfirst : Spared before.length s n between := fun save hsave =>
        hspared save (List.mem_append_left _ hsave)
      refine (h before save between s batch n op hbefore hwork hop hfirst).turn hsound hroot i ?_
      rw [hone]
      exact fun save hsave => hspared save (List.mem_append_right _ hsave)

lemma Safe.meanwhile (h : scene.Safe root) (hw : KeepsFile root scene.world w) :
    Safe root { scene with world := w } := by
  intro before save after s batch n op hsaves hwork hop hspared
  rcases h before save after s batch n op hsaves hwork hop hspared with hsubmitted | ⟨hfile, hknows⟩
  · exact .inl (hsubmitted.mono hw.onward)
  · exact .inr ⟨hfile.mono hw, hknows⟩

end Scene

/-- The incident leaves the file of the staging area, if it is not the turn of a process. -/
def Incident.IsApart (root : Path) : Incident → Prop
  | .turn _ => True
  | .meanwhile change => ∀ w, KeepsFile root w (change w)

lemma Scene.sound_and_safe_run (hsound : scene.Sound root processes) (hsafe : scene.Safe root)
    (hroot : ∀ i, (processes i).config.stateDirectory = root) {incidents : List Incident}
    (hapart : ∀ incident ∈ incidents, incident.IsApart root) :
    (scene.run processes incidents).Sound root processes ∧
      (scene.run processes incidents).Safe root := by
  induction incidents generalizing scene with
  | nil => exact ⟨hsound, hsafe⟩
  | cons incident incidents ih =>
    have hfirst := hapart incident (.head _)
    have hrest : ∀ incident ∈ incidents, incident.IsApart root := fun incident h =>
      hapart incident (.tail _ h)
    cases incident with
    | turn i => exact ih (hsound.turn hroot i) (hsafe.turn hsound hroot i) hrest
    | «meanwhile» change =>
      exact ih (hsound.meanwhile (hfirst _).onward) (hsafe.meanwhile (hfirst _)) hrest

/-- A process that has carried out a command which stages packages has saved them.  Each operation
that it staged is loaded from then on, or was part of a payload that has been accepted, if every
process that has saved the area later spares the operation and has loaded the area later. -/
theorem staged_survives (hfile : HasFile root content w)
    (hroot : ∀ i, (processes i).config.stateDirectory = root) {incidents : List Incident}
    (hapart : ∀ incident ∈ incidents, incident.IsApart root) {i : Nat}
    (hstages : (processes i).command.isStaging = true)
    (hdone : ((Scene.start w).run processes incidents).progress i = .done) :
    ∃ before save after s batch,
      ((Scene.start w).run processes incidents).saves = before ++ save :: after ∧
      save.process = i ∧ save.work = .stage s batch ∧ (processes i).Does save.work ∧
      ∀ n op, batch.operation? n = some op → Spared before.length s n after →
        (∃ a, Loads root a ((Scene.start w).run processes incidents).world ∧
          a.plan s n = some op) ∨
        Submitted s n op ((Scene.start w).run processes incidents).world := by
  have hstart : (Scene.start w).Safe root := by
    intro before save after s batch n op hsaves
    exact absurd hsaves (by simp [Scene.start])
  obtain ⟨hsound, hsafe⟩ :=
    Scene.sound_and_safe_run (Scene.sound_start hfile) hstart hroot hapart
  have hi := hsound.progress i
  rw [hdone] at hi
  obtain ⟨save, hmem, rfl⟩ := hi hstages
  have hdoes := hsound.saves save hmem
  obtain ⟨s, batch, hwork⟩ := hdoes.stage hstages
  obtain ⟨before, after, hsaves⟩ := List.append_of_mem hmem
  refine ⟨before, save, after, s, batch, hsaves, rfl, hwork, hdoes, fun n op hop hspared => ?_⟩
  rcases hsafe before save after s batch n op hsaves hwork hop hspared with
    hsubmitted | ⟨⟨content, a, hopen, ha, hplan⟩, -⟩
  · exact .inr hsubmitted
  · exact .inl ⟨a, ⟨content, hopen.hasFile, ha⟩, hplan⟩

/-! ### Two processes -/

lemma not_submitted (h : w.requests.isEmpty = true) : ¬Submitted s n op w := by
  rintro ⟨c, ⟨payload, -, client, token, sizes, d, reply, response, hmem, -⟩, -⟩
  rw [List.isEmpty_iff.1 h] at hmem
  exact List.not_mem_nil hmem

/-- The first process stages a deletion in one section, and the others in another one. -/
def deleters (i : Nat) : Process :=
  let config : Config := ⟨⟨[], none, .unstructured [], none, none⟩, .ofString "/s", 0⟩
  if i = 0 then ⟨.delete "b/r/x" ["p"], config⟩ else ⟨.delete "c/r/x" ["q"], config⟩

lemma hasFile_empty : ∃ content, HasFile (.ofString "/s") content World.empty := by
  have hloads : Loads (.ofString "/s") .empty World.empty :=
    loads_of_load rfl (by decide +kernel) (by decide +kernel)
  obtain ⟨content, hfile, -⟩ := hloads
  exact ⟨content, hfile⟩

lemma stateDirectory_deleters (i : Nat) : (deleters i).config.stateDirectory = .ofString "/s" := by
  unfold deleters
  split_ifs
  · rfl
  · rfl

/-- Of two saves, the one by the process of the first is the first. -/
lemma eq_first {first second save : Save} {before after : List Save}
    (h : [first, second] = before ++ save :: after) (hsave : save.process = first.process)
    (hne : first.process ≠ second.process) : before = [] ∧ save = first ∧ after = [second] := by
  rcases before with _ | ⟨x, _ | ⟨y, before⟩⟩
  · obtain ⟨rfl, rfl⟩ := List.cons.inj h
    exact ⟨rfl, rfl, rfl⟩
  · obtain ⟨-, hrest⟩ := List.cons.inj h
    obtain ⟨rfl, -⟩ := List.cons.inj hrest
    exact absurd hsave.symm hne
  · simp at h

/-- The second process begins when the first one is done and the clock has gone on. -/
def inTurn : List Incident :=
  .replicate 5 (.turn 0) ++ .meanwhile (fun w => { w with clock := ⟨1, 0⟩ }) ::
    .replicate 5 (.turn 1)

/-- Both processes have saved the area, the second one after it had loaded what the first one saved,
and nothing was sent. -/
lemma run_inTurn :
    ((Scene.start .empty).run deleters inTurn).saves =
      [⟨0, .stage (.ofString "b/r/x") (.delete ["p"]), 0⟩,
        ⟨1, .stage (.ofString "c/r/x") (.delete ["q"]), 1⟩] ∧
    ((Scene.start .empty).run deleters inTurn).world.requests.isEmpty = true := by
  decide +kernel

/-- The deletion that was staged first is there at the end. -/
theorem staged_survives_deletion :
    (∃ content, HasFile (.ofString "/s") content World.empty) ∧
    (∀ i, (deleters i).config.stateDirectory = .ofString "/s") ∧
    (∀ incident ∈ inTurn, incident.IsApart (.ofString "/s")) ∧
    (deleters 0).command.isStaging = true ∧
    ((Scene.start .empty).run deleters inTurn).progress 0 = .done ∧
    ∃ a, Loads (.ofString "/s") a ((Scene.start .empty).run deleters inTurn).world ∧
      a.plan (.ofString "b/r/x") "p" = some .delete := by
  have hapart : ∀ incident ∈ inTurn, incident.IsApart (.ofString "/s") := by
    intro incident h
    rcases List.mem_append.1 h with h | h
    · rw [List.eq_of_mem_replicate h]
      trivial
    · rcases List.mem_cons.1 h with rfl | h
      · exact fun w => .of_sameFiles ⟨rfl, rfl⟩ rfl
      · rw [List.eq_of_mem_replicate h]
        trivial
  have hdone : ((Scene.start .empty).run deleters inTurn).progress 0 = .done := by rfl
  refine ⟨hasFile_empty, stateDirectory_deleters, hapart, rfl, hdone, ?_⟩
  obtain ⟨content, hfile⟩ := hasFile_empty
  obtain ⟨before, save, after, s, batch, hsaves, hprocess, hwork, -, hsurvive⟩ :=
    staged_survives hfile stateDirectory_deleters hapart (i := 0) rfl hdone
  obtain ⟨hboth, hsilent⟩ := run_inTurn
  -- the first save is that of the first process, and the second one spares it
  obtain ⟨rfl, rfl, rfl⟩ := eq_first (hboth.symm.trans hsaves) hprocess (by decide)
  obtain ⟨rfl, rfl⟩ := Work.stage.inj hwork
  have hspared : Spared 0 (.ofString "b/r/x") "p"
      [⟨1, .stage (.ofString "c/r/x") (.delete ["q"]), 1⟩] := by
    intro save hsave
    obtain rfl := List.mem_singleton.1 hsave
    exact ⟨by decide, fun hs => absurd hs (by decide +kernel)⟩
  exact (hsurvive "p" .delete rfl hspared).resolve_right (not_submitted hsilent)

/-- Both processes load the staging area before either saves it. -/
def abreast : List Incident := [0, 0, 1, 1, 0, 0, 0, 1, 1, 1].map .turn

/-- An operation can be lost if another process saves an area that it had loaded before, although
the work of that process has nothing to do with the operation. -/
theorem staged_is_lost :
    ¬∀ (root : Path) (content : Option Bytes) (w : World) (processes : Nat → Process)
      (incidents : List Incident) (i : Nat), HasFile root content w →
      (∀ i, (processes i).config.stateDirectory = root) →
      (∀ incident ∈ incidents, incident.IsApart root) →
      (processes i).command.isStaging = true →
      ((Scene.start w).run processes incidents).progress i = .done →
      ∃ before save after s batch,
        ((Scene.start w).run processes incidents).saves = before ++ save :: after ∧
        save.process = i ∧ save.work = .stage s batch ∧ (processes i).Does save.work ∧
        ∀ n op, batch.operation? n = some op → (∀ later ∈ after, later.work.Spares s n) →
          (∃ a, Loads root a ((Scene.start w).run processes incidents).world ∧
            a.plan s n = some op) ∨
          Submitted s n op ((Scene.start w).run processes incidents).world := by
  intro hclaim
  obtain ⟨content, hfile⟩ := hasFile_empty
  have hapart : ∀ incident ∈ abreast, incident.IsApart (.ofString "/s") := by
    intro incident h
    obtain ⟨i, -, rfl⟩ := List.mem_map.1 h
    trivial
  have hdone : ((Scene.start .empty).run deleters abreast).progress 0 = .done := by rfl
  obtain ⟨before, save, after, s, batch, hsaves, hprocess, hwork, -, hsurvive⟩ :=
    hclaim _ _ _ _ _ 0 hfile stateDirectory_deleters hapart rfl hdone
  have hboth : ((Scene.start .empty).run deleters abreast).saves =
      [⟨0, .stage (.ofString "b/r/x") (.delete ["p"]), 0⟩,
        ⟨1, .stage (.ofString "c/r/x") (.delete ["q"]), 0⟩] := by
    decide +kernel
  obtain ⟨rfl, rfl, rfl⟩ := eq_first (hboth.symm.trans hsaves) hprocess (by decide)
  obtain ⟨rfl, rfl⟩ := Work.stage.inj hwork
  have hspares : ∀ later ∈ [(⟨1, .stage (.ofString "c/r/x") (.delete ["q"]), 0⟩ : Save)],
      later.work.Spares (.ofString "b/r/x") "p" := by
    intro later hlater
    obtain rfl := List.mem_singleton.1 hlater
    exact fun hs => absurd hs (by decide +kernel)
  have hsilent : ((Scene.start .empty).run deleters abreast).world.requests.isEmpty = true := by
    decide +kernel
  obtain ⟨a, hloads, hplan⟩ :=
    (hsurvive "p" .delete rfl hspares).resolve_right (not_submitted hsilent)
  -- what is loaded at the end is what the second process has saved
  have hlast : ((opened (.ofString "/s") >>= loadArea).exec
      ((Scene.start .empty).run deleters abreast).world).1 =
        .ok ⟨[⟨⟨"c/r/x"⟩, .ofPatch (.delete ["q"])⟩]⟩ := by
    decide +kernel
  obtain rfl := Except.ok.inj (hloads.load.symm.trans hlast)
  exact absurd hplan (by decide +kernel)

end PackageStaging.CommandLine
