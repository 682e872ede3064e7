/-
# What each command does

`Work.Makes` says what a command makes of the staging area, and `outcome_perform_makes` that this is
held after a command that succeeds, while one that fails leaves the area as it was.  In terms of
plans this is `Plan.after` (`outcome_perform`).  When unstaging succeeds is said by
`perform_unstage_isOk_iff`.
-/
import PackageStaging.Proofs.CommandLine.Openings
import PackageStaging.Proofs.Push.Submission

namespace PackageStaging

open CommandLine in
/-- The plan after a command that has succeeded in this working directory. -/
def Plan.after (here : Path) (plan : Plan) : Command → Plan
  | .add origin files =>
    plan.withBatch (.ofString origin)
      (.add (groupFiles (.ofString origin) (files.map (Path.absolute here))))
  | .delete origin names => plan.withBatch (.ofString origin) (.delete names)
  | .copy origin target names => plan.withBatch (.ofString origin) (.copy names (.ofString target))
  | .move origin target names => plan.withBatch (.ofString origin) (.move names (.ofString target))
  | .unstage origin names =>
    if names = [] then plan.withoutSection (.ofString origin)
    else plan.without (.ofString origin) names
  | .clear | .push => .nothing
  | .login _ | .logout | .sections | .status | .sync | .snap _ => plan

namespace CommandLine

open Attempt StateDirectory SectionAddress

variable {root : Path} {dir : Route} {content : Option Bytes} {a b : StagingArea} {here : Path}
  {w : World} {config : Config} {k : SectionKey} {s : SectionAddress} {work : Work}
  {command : Command}

/-! ### What is made of the area -/

/-- The area `b` is what the work makes of the area `a`. -/
def Work.Makes (a b : StagingArea) : Work → Prop
  | .stage s batch => ∃ k log, s.KeyedBy k ∧ a.restage s batch = .ok (b, log)
  | .unstage s names => (∃ k, s.KeyedBy k) ∧ unstaged a s names = .ok b
  | .clear | .push => b = .empty
  | .status => b = a

/-- The area `b` is what the command makes of the area `a`. -/
def Command.Makes (here : Path) (a b : StagingArea) (command : Command) : Prop :=
  match command.work? here with
  | some work => work.Makes a b
  | none => b = a

/-! ### What is decided -/

/-- What is done after the area is saved neither fails nor touches the area. -/
structure Harmless (root : Path) (t : Attempt Unit) : Prop where
  leaves : ∀ dir content, Leaves (Holding root dir content) t
  succeeds : Succeeds t

lemma harmless_say (line : String) : Harmless root (say line) :=
  ⟨fun _ _ => leaves_say ofFiles_holding line, succeeds_say line⟩

/-- What the work comes to: the area that it makes is to be saved, after the old one has been
published if that is the work; or there is nothing to be saved. -/
def Work.Decides (root : Path) (a : StagingArea) (work : Work) :
    Option Decision → World → Prop
  | some decision, w =>
    work.Makes a decision.area ∧ (work = .push → w.Published a) ∧ Harmless root decision.rest
  | none, _ => work.Makes a a ∧ (work = .status ∨ work = .push)

lemma leaves_pushed : Leaves (Holding root dir content) (pushed config ⟨root⟩ a) := by
  have hP : OfFiles (Holding root dir content) := ofFiles_holding
  refine (Connection.leaves_opened hP _ _).bind fun connection => ?_
  refine (Push.leaves_run hP (asks_showEvent fun _ _ => rfl) _ _).bind fun v => ?_
  obtain ⟨client, push⟩ := v
  dsimp only
  split
  · exact leaves_pure _
  · refine (Connection.leaves_keepSession _).outcome.bind fun _ => ?_
    exact (leaves_forM fun line _ => leaves_complain hP line).bind fun _ => leaves_fail _
  · exact leaves_pure _

lemma leaves_decided : Leaves (Holding root dir content) (work.decided config ⟨root⟩ a) := by
  have hP : OfFiles (Holding root dir content) := ofFiles_holding
  cases work with
  | stage s batch =>
    refine (leaves_ofExcept _).bind fun r => ?_
    exact (leaves_forM fun r _ => leaves_say hP _).bind fun _ => leaves_pure _
  | unstage s names =>
    refine (leaves_ofExcept _).bind fun left => ?_
    exact (leaves_say hP _).bind fun _ => leaves_pure _
  | clear => exact leaves_pure _
  | status => exact (leaves_forM fun line _ => leaves_say hP line).bind fun _ => leaves_pure _
  | push =>
    rw [Work.decided]
    split_ifs
    · exact (leaves_say hP _).bind fun _ => leaves_pure _
    · exact leaves_pushed

/-- A push that succeeds publishes and empties the area; a session that cannot be stored and a
listing that cannot be fetched afterwards do no harm. -/
lemma ends_pushed : Ends (Work.push.Decides root a) (pushed config ⟨root⟩ a) := by
  refine (gives_any _).bind_ends fun connection _ => ?_
  refine (Push.ends_run showEvent connection.client a).bind fun v w hv => ?_
  obtain ⟨r, hresult, hover⟩ := hv
  obtain ⟨client, push⟩ := v
  dsimp only at hresult hover ⊢
  rw [hresult]
  cases r with
  | error e =>
    refine (gives_any _).bind_ends (fun _ _ => (gives_any _).bind_ends fun _ _ => ?_) w
    intro w x w' hrun
    cases hrun
  | ok outcome =>
    intro decision? w' hrun
    obtain ⟨rfl, rfl⟩ := exec_pure_inj hrun
    obtain ⟨hempty, hpublished⟩ := hover outcome rfl
    refine ⟨hempty, fun _ => hpublished, fun dir content => ?_, ?_⟩
    · refine (Connection.leaves_keepSession _).outcome.bind fun _ => ?_
      refine (leaves_say ofFiles_holding _).bind fun _ => ?_
      split_ifs
      · exact (Client.leaves_sections ofFiles_holding _).outcome.bind fun _ => leaves_pure ()
      · exact leaves_pure ()
    · refine (succeeds_outcome _).bind fun _ => (succeeds_say _).bind fun _ => ?_
      split_ifs
      · exact (succeeds_outcome _).bind fun _ => succeeds_pure ()
      · exact succeeds_pure ()

lemma ends_decided (hkeyed : work.Keyed) :
    Ends (work.Decides root a) (work.decided config ⟨root⟩ a) := by
  cases work with
  | stage s batch =>
    obtain ⟨k, hk⟩ := hkeyed
    refine (gives_ofExcept _).bind_ends fun r hr => ?_
    obtain ⟨b, log⟩ := r
    refine (gives_any _).bind_ends fun _ _ => ?_
    exact ends_pure fun _ => ⟨⟨k, log, hk, hr⟩, (fun h => nomatch h), harmless_say _⟩
  | unstage s names =>
    refine (gives_ofExcept _).bind_ends fun left hleft => ?_
    refine (gives_any _).bind_ends fun _ _ => ?_
    exact ends_pure fun _ => ⟨⟨hkeyed, hleft⟩, (fun h => nomatch h),
      fun _ _ => leaves_pure (), succeeds_pure ()⟩
  | clear => exact ends_pure fun _ => ⟨rfl, (fun h => nomatch h), harmless_say _⟩
  | status => exact (gives_any _).bind_ends fun _ _ => ends_pure fun _ => ⟨rfl, .inl rfl⟩
  | push =>
    rw [Work.decided]
    split_ifs with hempty
    · exact (gives_any _).bind_ends fun _ _ =>
        ends_pure fun _ => ⟨StagingArea.eq_empty_of_isEmpty hempty, .inr rfl⟩
    · exact ends_pushed

/-! ### What is held afterwards -/

/-- What is made of a well-formed area is well-formed. -/
lemma Work.Makes.wellFormed (h : work.Makes a b) (ha : a.WellFormed) : b.WellFormed := by
  cases work with
  | stage s batch =>
    obtain ⟨k, log, hk, hb⟩ := h
    exact (StagingArea.plan_restage ha hk hb).1
  | unstage s names =>
    obtain ⟨⟨k, hk⟩, hb⟩ := h
    unfold unstaged at hb
    split_ifs at hb
    · exact (StagingArea.plan_unstageSection ha hk hb).1
    · exact (StagingArea.plan_unstageAll ha hk hb).1
  | clear => exact h ▸ StagingArea.wellFormed_empty
  | status => exact h ▸ ha
  | push => exact h ▸ StagingArea.wellFormed_empty

/-- An area that is saved is held, unless it cannot be written. -/
lemma exec_saveArea_cases (b : StagingArea) (h : Holding root dir content w) :
    (∃ e, (saveArea ⟨root⟩ b).exec w = (.error e, w)) ∨
      ∃ w' content', (saveArea ⟨root⟩ b).exec w = (.ok (), w') ∧
        Holding root dir content' w' ∧ Stored b content' := by
  by_cases hvalue : ∃ v, Wire.stagingAreaValue b = .ok v
  · exact .inr (exec_saveArea h hvalue)
  · exact .inl (exec_saveArea_error hvalue ⟨root⟩ w)

/-- The area `b` is what the file holds after a command: it was saved, or it is the area from
before and nothing was saved. -/
def Kept (a : StagingArea) (content : Option Bytes) (b : StagingArea) (content' : Option Bytes) :
    Prop :=
  b = a ∧ content' = content ∨ b.WellFormed ∧ Stored b content'

lemma Kept.reads {content' : Option Bytes} (h : Kept a content b content')
    (ha : Reads a content) : Reads b content' := by
  rcases h with ⟨rfl, rfl⟩ | ⟨hb, hstored⟩
  · exact ha
  · exact hstored.reads hb

/-- The work from the loading of the area on. -/
lemma outcome_work (h : Holding root dir content w) (ha : Reads a content)
    (hkeyed : work.Keyed) :
    Outcome root content (fun content' => ∃ b, work.Makes a b ∧ Kept a content b content')
      ((work.perform config ⟨root⟩).exec w) := by
  have hload : (loadArea ⟨root⟩).exec w = (.ok a, w) := ha ▸ exec_loadArea h
  rw [Work.perform, exec_bind_ok hload]
  refine exec_of_leaves allowsFailure_outcome h leaves_decided fun decision? w' hrun hafter => ?_
  have hdecides := ends_decided hkeyed w decision? w' hrun
  cases decision? with
  | none =>
    exact ⟨content, hasFile_of_holding hafter, .inr ⟨rfl, a, hdecides.1, .inl ⟨rfl, rfl⟩⟩⟩
  | some decision =>
    obtain ⟨hmakes, -, hleaves, hok⟩ := hdecides
    have hb := hmakes.wellFormed ha.wellFormed
    rcases exec_saveArea_cases decision.area hafter with ⟨e, hsave⟩ | ⟨w2, content', hsave, h2, hst⟩
    · rw [Decision.carriedOut, exec_bind_error hsave]
      exact allowsFailure_outcome e w' (hasFile_of_holding hafter)
    · rw [Decision.carriedOut, exec_bind_ok hsave]
      obtain ⟨u, w3, hlast⟩ := hok w2
      have hlater := hleaves dir content' w2 h2
      rw [hlast] at hlater ⊢
      exact ⟨content', hasFile_of_holding hlater,
        .inr ⟨rfl, decision.area, hmakes, .inr ⟨hb, hst⟩⟩⟩

/-- What the file holds after a command that succeeds is what the command makes of the area, and a
command that fails leaves the file as it was. -/
theorem outcome_perform_makes (h : HasFile root content w) (ha : Reads a content)
    (hroot : config.stateDirectory = root) (command : Command) :
    Outcome root content
      (fun content' => ∃ b, command.Makes w.workingDirectory a b ∧ Kept a content b content')
      ((command.perform config).exec w) := by
  have hready := ready_opening h hroot command
  rw [Command.perform_eq]
  refine exec_bind_cases ?_ ?_
  · intro e w' hrun
    rw [hrun] at hready
    exact allowsFailure_outcome e w' hready
  · intro r w' hrun
    rw [hrun] at hready
    unfold Command.Makes
    cases r with
    | none =>
      obtain ⟨hwork, hafter⟩ := hready
      rw [hwork]
      exact ⟨content, hafter, .inr ⟨rfl, a, rfl, .inl ⟨rfl, rfl⟩⟩⟩
    | some r =>
      obtain ⟨d, work⟩ := r
      obtain ⟨hwork, hkeyed, rfl, dir, hholding⟩ := hready
      rw [hwork]
      exact outcome_work hholding ha hkeyed

/-- A command that succeeds leaves what it makes of the area to be loaded. -/
theorem loads_perform (h : Loads root a w) (hroot : config.stateDirectory = root)
    (hok : ((command.perform config).exec w).1 = .ok ()) :
    ∃ b, command.Makes w.workingDirectory a b ∧
      Loads root b ((command.perform config).exec w).2 := by
  obtain ⟨content, hfile, ha⟩ := h
  obtain ⟨content', hfile', ⟨⟨e, he⟩, -⟩ | ⟨-, b, hmakes, hkept⟩⟩ :=
    outcome_perform_makes hfile ha hroot command
  · exact nomatch he.symm.trans hok
  · exact ⟨b, hmakes, content', hfile', hkept.reads ha⟩

/-- Once a command has come to stage a batch it succeeds, unless the area that it makes cannot be
written. -/
theorem perform_stage_isOk (h : Loads root a w) (hroot : config.stateDirectory = root)
    {d : StateDirectory} {batch : Batch}
    (hopening : ((command.opening config).exec w).1 = .ok (some (d, .stage s batch)))
    (hwritable : ∀ b log, a.restage s batch = .ok (b, log) →
      ∃ v, Wire.stagingAreaValue b = .ok v) :
    ((command.perform config).exec w).1 = .ok () := by
  obtain ⟨content, hfile, ha⟩ := h
  have hready := ready_opening hfile hroot command
  rcases hrun : (command.opening config).exec w with ⟨r, w1⟩
  rw [hrun] at hopening hready
  cases hopening
  obtain ⟨-, ⟨k, hk⟩, rfl, dir, hholding⟩ := hready
  obtain ⟨⟨b, log⟩, hb⟩ := StagingArea.restage_isOk ha.wellFormed hk.1 batch
  have hload : (loadArea ⟨root⟩).exec w1 = (.ok a, w1) := ha ▸ exec_loadArea hholding
  have hrestage : (ofExcept (a.restage s batch)).exec w1 = (.ok (b, log), w1) := by
    rw [hb, exec_ofExcept]
  -- the lines about rerouted packages are printed before the area is saved
  have hsays : Leaves (Holding root dir content) (log.forM fun r => say (reroutingLine r)) :=
    leaves_forM fun r _ => leaves_say ofFiles_holding _
  obtain ⟨u, w2, hsaid⟩ := succeeds_forM (l := log) (fun r _ => succeeds_say (reroutingLine r)) w1
  have hholding2 := hsays w1 hholding
  rw [hsaid] at hholding2
  have hdecided : ((Work.stage s batch).decided config ⟨root⟩ a).exec w1 =
      (.ok (some ⟨b, say (doneLine (stagedText s batch))⟩), w2) := by
    rw [Work.decided, exec_bind_ok hrestage]
    exact (exec_bind_ok hsaid).trans rfl
  obtain ⟨w3, content', hsave, -, -⟩ := exec_saveArea hholding2 (hwritable b log hb)
  rw [Command.perform_eq, exec_bind_ok hrun, Work.carriedOut, Work.perform, exec_bind_ok hload,
    exec_bind_ok hdecided, Decision.carriedOut, exec_bind_ok hsave]
  obtain ⟨v, w4, hdone⟩ := succeeds_say (doneLine (stagedText s batch)) w3
  rw [hdone]

/-! ### Plans -/

lemma plan_unstaged (ha : a.WellFormed) (hs : s.KeyedBy k) {names : List String}
    (hb : unstaged a s names = .ok b) :
    b.plan = if names = [] then a.plan.withoutSection s else a.plan.without s names := by
  unfold unstaged at hb
  split_ifs at hb ⊢
  · exact (StagingArea.plan_unstageSection ha hs hb).2
  · exact (StagingArea.plan_unstageAll ha hs hb).2

/-- What a command makes of the area is what it makes of the plan. -/
lemma Command.Makes.plan (h : command.Makes here a b) (ha : a.WellFormed) :
    b.plan = a.plan.after here command := by
  have hstage : ∀ {s batch}, (Work.stage s batch).Makes a b → b.plan = a.plan.withBatch s batch :=
    fun ⟨_, _, hk, hb⟩ => (StagingArea.plan_restage ha hk hb).2
  cases command with
  | add => exact hstage h
  | delete => exact hstage h
  | copy => exact hstage h
  | move => exact hstage h
  | unstage origin names =>
    obtain ⟨⟨k, hk⟩, hb⟩ := h
    exact plan_unstaged ha hk hb
  | clear => exact (congrArg StagingArea.plan h).trans StagingArea.plan_empty
  | push => exact (congrArg StagingArea.plan h).trans StagingArea.plan_empty
  | _ => exact congrArg StagingArea.plan h

/-- A command that succeeds leaves the staging area of the plan after it, and one that fails leaves
the area as it was. -/
theorem outcome_perform (h : Holds root a w) (hroot : config.stateDirectory = root)
    (command : Command) :
    ∃ b, Holds root b ((command.perform config).exec w).2 ∧
      ((∃ e, ((command.perform config).exec w).1 = .error e) ∧ b = a ∨
        ((command.perform config).exec w).1 = .ok () ∧
          b.plan = a.plan.after w.workingDirectory command) := by
  obtain ⟨ha, content, hfile, hstored⟩ := holds_iff.1 h
  obtain ⟨content', hfile', ⟨herror, rfl⟩ | ⟨hok, b, hmakes, hkept⟩⟩ :=
    outcome_perform_makes hfile (hstored.reads ha) hroot command
  · exact ⟨a, holds_iff.2 ⟨ha, content', hfile', hstored⟩, .inl ⟨herror, rfl⟩⟩
  · refine ⟨b, holds_iff.2 ?_, .inr ⟨hok, hmakes.plan ha⟩⟩
    rcases hkept with ⟨rfl, rfl⟩ | ⟨hb, hstored'⟩
    · exact ⟨ha, content', hfile', hstored⟩
    · exact ⟨hb, content', hfile', hstored'⟩

/-! ### When unstaging succeeds -/

/-- What is left of a staging area that can be written can be written. -/
lemma writable_of_less (ha : a.WellFormed) (hb : b.WellFormed)
    (hwritable : ∃ v, Wire.stagingAreaValue a = .ok v)
    (hless : ∀ s n op, b.plan s n = some op → a.plan s n = some op) :
    ∃ v, Wire.stagingAreaValue b = .ok v := by
  rw [Wire.stagingAreaValue_isOk_iff ha] at hwritable
  rw [Wire.stagingAreaValue_isOk_iff hb]
  intro k n u hop
  exact hwritable k n u (StagingArea.operation?_of_plan ha hb hless hop)

lemma less_of_unstaged (ha : a.WellFormed) (hs : s.KeyedBy k) {names : List String}
    (hb : unstaged a s names = .ok b) {s' : SectionAddress} {n : String} {op : Operation}
    (hop : b.plan s' n = some op) : a.plan s' n = some op := by
  rw [plan_unstaged ha hs hb] at hop
  split_ifs at hop
  · rw [Plan.withoutSection] at hop
    split_ifs at hop
    exact hop
  · rw [Plan.without] at hop
    split_ifs at hop
    exact hop

lemma readSection_ofString {given : String} (h : (ofString given).isComplete = true) :
    readSection given = .ok (.ofString given) := by
  simp only [readSection]
  rw [if_pos h]

/-- What can be unstaged is unstaged. -/
lemma exec_runUnstage (h : HasFile root content w) (ha : Reads a content)
    (hroot : config.stateDirectory = root) {origin : String} (hs : (ofString origin).KeyedBy k)
    (hcomplete : readSection origin = .ok (.ofString origin)) {names : List String}
    (hb : unstaged a (.ofString origin) names = .ok b) :
    ((runUnstage config origin names).exec w).1 = .ok () := by
  obtain ⟨dir, w', hopened, hholding⟩ := h
  have hread : (ofExcept (readSection origin)).exec w = (.ok (.ofString origin), w) := by
    rw [hcomplete, exec_ofExcept]
  have hrun : (ofExcept (unstaged a (.ofString origin) names)).exec w' = (.ok b, w') := by
    rw [hb, exec_ofExcept]
  have hmakes : (Work.unstage (ofString origin) names).Makes a b := ⟨⟨k, hs⟩, hb⟩
  have hP : OfFiles (Holding root dir content) := ofFiles_holding
  have hsay := leaves_say hP (doneLine (unstagedText (.ofString origin) names)) w' hholding
  obtain ⟨u, w'', hsaid⟩ :=
    succeeds_say (doneLine (unstagedText (.ofString origin) names)) w'
  rw [hsaid] at hsay
  obtain ⟨w3, content', hsave, -, -⟩ := exec_saveArea hsay
    (writable_of_less ha.wellFormed (hmakes.wellFormed ha.wellFormed) ha.writable
      fun s n op hop => less_of_unstaged ha.wellFormed hs hb hop)
  have hload : (loadArea ⟨root⟩).exec w' = (.ok a, w') := ha ▸ exec_loadArea hholding
  rw [runUnstage, exec_bind_ok hread, openState, hroot, exec_bind_ok hopened,
    exec_bind_ok hload]
  refine (congrArg Prod.fst (exec_bind_ok hrun)).trans ?_
  rw [exec_bind_ok hsaid, hsave]

/-- Unstaging succeeds exactly if the area after it is there. -/
lemma runUnstage_isOk_iff (h : HasFile root content w) (ha : Reads a content)
    (hroot : config.stateDirectory = root) {origin : String} (hs : (ofString origin).KeyedBy k)
    (hcomplete : readSection origin = .ok (.ofString origin)) (names : List String) :
    ((runUnstage config origin names).exec w).1 = .ok () ↔
      ∃ b, unstaged a (.ofString origin) names = .ok b := by
  constructor
  · intro hok
    obtain ⟨content', -, ⟨⟨e, he⟩, -⟩ | ⟨-, b, hmakes, -⟩⟩ :=
      outcome_perform_makes h ha hroot (.unstage origin names)
    · exact nomatch he.symm.trans hok
    · exact ⟨b, hmakes.2⟩
  · rintro ⟨b, hb⟩
    exact exec_runUnstage h ha hroot hs hcomplete hb

lemma exec_runUnstage_incomplete {origin : String} (h : ¬(ofString origin).isComplete = true)
    (config : Config) (names : List String) (w : World) :
    (runUnstage config origin names).exec w = (.error (.incompleteSection origin), w) := by
  have hread : (ofExcept (readSection origin)).exec w =
      (.error (.incompleteSection origin), w) := by
    simp only [readSection]
    rw [if_neg h, exec_ofExcept]
  rw [runUnstage, exec_bind_error hread]

/-- Unstaging succeeds if what is named is staged: some package of the section, or all of these
names, which have to be different. -/
theorem perform_unstage_isOk_iff (h : Holds root a w) (hroot : config.stateDirectory = root)
    (origin : String) (names : List String) :
    (((Command.unstage origin names).perform config).exec w).1 = .ok () ↔
      if names = [] then ∃ n op, a.plan (.ofString origin) n = some op
      else names.Nodup ∧ ∀ n ∈ names, (a.plan (.ofString origin) n).isSome := by
  show ((runUnstage config origin names).exec w).1 = .ok () ↔ _
  by_cases hcomplete : (ofString origin).isComplete = true
  · obtain ⟨k, hk⟩ := keyedBy_ofString hcomplete
    obtain ⟨ha, content, hfile, hstored⟩ := holds_iff.1 h
    rw [runUnstage_isOk_iff hfile (hstored.reads ha) hroot hk (readSection_ofString hcomplete),
      unstaged]
    split_ifs
    · exact StagingArea.unstageSection_isOk_iff_plan h.wellFormed hk
    · exact StagingArea.unstageAll_isOk_iff_plan h.wellFormed hk
  · -- nothing is staged in a section that is not complete
    have hnone : ∀ n, a.plan (.ofString origin) n = none := by
      refine StagingArea.plan_eq_none h.wellFormed ?_
      rintro ⟨k, hk, -⟩
      rw [key?, if_neg hcomplete] at hk
      cases hk
    rw [exec_runUnstage_incomplete hcomplete]
    constructor
    · intro hok
      cases hok
    · intro hstaged
      split_ifs at hstaged with hnames
      · obtain ⟨n, op, hop⟩ := hstaged
        rw [hnone] at hop
        cases hop
      · obtain ⟨n, hn⟩ := List.exists_mem_of_ne_nil names hnames
        have hsome := hstaged.2 n hn
        rw [hnone] at hsome
        cases hsome

end CommandLine

end PackageStaging
