/-
# What commands stage

Whatever commands are carried out on a fresh state directory, what they stage is proper
(`staged_proper`): only a command whose target is complete comes to stage a copy or a move, and what
is staged for upload was grouped for its section.
-/
import PackageStaging.Proofs.CommandLine.LastWins
import PackageStaging.Proofs.Staging.Proper

namespace PackageStaging

open CommandLine

/-- The sections that the command leads to are complete. -/
def CommandLine.Command.LeadsToComplete : Command → Prop
  | .copy _ target _ | .move _ target _ => (SectionAddress.ofString target).isComplete = true
  | _ => True

/-- A command whose target is complete leaves a proper plan proper. -/
lemma Plan.Proper.after {plan : Plan} (h : plan.Proper) (here : Path) {command : Command}
    (hcommand : command.LeadsToComplete) : (plan.after here command).Proper := by
  cases command with
  | add origin files => exact h.withBatch (Batch.proper_add _ _)
  | delete origin names => exact h.withBatch (Batch.proper_delete _ names)
  | copy origin target names => exact h.withBatch (Batch.proper_copy hcommand)
  | move origin target names => exact h.withBatch (Batch.proper_move hcommand)
  | unstage origin names =>
    rw [Plan.after]
    split_ifs
    · exact h.withoutSection _
    · exact h.without _ names
  | clear => exact proper_nothing
  | push => exact proper_nothing
  | _ => exact h

namespace CommandLine

open Attempt StateDirectory

variable {root : Path} {w : World} {plan : Plan} {config : Config} {command : Command}

lemma isComplete_of_runTransfer {origin target : String} {batch : SectionAddress → Batch}
    (hok : ((runTransfer config origin target batch).exec w).1 = .ok ()) :
    (SectionAddress.ofString target).isComplete = true := by
  by_contra hincomplete
  have hread : readSection target = .error (.incompleteSection target) := by
    simp only [readSection]
    rw [if_neg hincomplete]
  refine absurd hok ?_
  rw [runTransfer, hread]
  refine exec_bind_cases (P := fun r => ¬ r.1 = .ok ()) (fun e w' _ => ?_) fun s w' _ => ?_
  · rintro ⟨⟩
  · rintro ⟨⟩

/-- A command that succeeds leads to complete sections. -/
lemma leadsToComplete_of_ok (hok : ((command.perform config).exec w).1 = .ok ()) :
    command.LeadsToComplete := by
  cases command with
  | copy origin target names => exact isComplete_of_runTransfer hok
  | move origin target names => exact isComplete_of_runTransfer hok
  | _ => trivial

lemma Errand.proper_planned (h : plan.Proper) (e : Errand) (w : World) :
    (e.planned w plan).Proper := by
  unfold Errand.planned
  split
  · next hok => exact h.after _ (leadsToComplete_of_ok hok)
  · exact h

/-- Commands one after another leave a proper plan proper. -/
lemma proper_runAll (h : plan.Proper) (w : World) (es : List Errand) :
    (runAll w plan es).2.Proper := by
  induction es generalizing w plan with
  | nil => exact h
  | cons e es ih => exact ih (e.proper_planned h w) _

/-- After any commands on a fresh state directory the staging area is proper, and it is held. -/
lemma holds_proper (hw : Fresh root w) {es : List Errand}
    (hes : ∀ e ∈ es, e.config.stateDirectory = root ∧ LeavesState root e.meanwhile) :
    ∃ a, Holds root a (runAll w .nothing es).1 ∧ a.Proper := by
  obtain ⟨a, ha, hplan⟩ := holds_runAll hw.holds es hes
  rw [StagingArea.plan_empty] at ha hplan
  exact ⟨a, ha, StagingArea.proper_of_plan ha.wellFormed
    (hplan ▸ proper_runAll Plan.proper_nothing w es)⟩

/-- After any commands on a fresh state directory, every upload is staged under its name in the
section that it goes to and has its files under their own names, and copies and moves lead to
complete sections.  So what is refused when the area is encoded is one file that is missing, and a
form that is sent has for each package the section in which it is staged. -/
theorem staged_proper (hw : Fresh root w) (es : List Errand)
    (hes : ∀ e ∈ es, e.config.stateDirectory = root ∧ LeavesState root e.meanwhile) :
    ∃ a, ((opened root >>= loadArea).exec (runAll w .nothing es).1).1 = .ok a ∧ a.Proper ∧
      (∀ err, Payload.encode a = .error err → ∃ n r, err = .missingFields n [r] ∧
        (r.label = "package file" ∨ r.label = "signature file")) ∧
      ∀ p, Payload.encode a = .ok p → Payload.SentAsStaged a p := by
  obtain ⟨a, ha, hproper⟩ := holds_proper hw hes
  refine ⟨a, ha.load, hproper, fun err herr => ?_, fun p hp => Payload.sentAsStaged hproper hp⟩
  obtain ⟨n, r, herror, rfl | rfl⟩ := Payload.encode_eq_error_of_proper hproper herr
  · exact ⟨n, _, herror, .inl rfl⟩
  · exact ⟨n, _, herror, .inr rfl⟩

/-- A signature lies at the root. -/
def signatureAtRoot : World :=
  { World.empty with files := ⟨[([Utf8.encode "p.sig"], .file [])]⟩ }

/-- The signature is staged. -/
def addSignature : List Errand :=
  [⟨.add "b/r/x" [.ofString "/p.sig"],
    ⟨⟨[], none, .unstructured [], none, none⟩, .ofString "/s", 0⟩, id⟩]

/-- The signature is staged for the package that it belongs to. -/
theorem staged_proper_signature :
    Fresh (.ofString "/s") signatureAtRoot ∧
    (∀ e ∈ addSignature, e.config.stateDirectory = .ofString "/s" ∧
      LeavesState (.ofString "/s") e.meanwhile) ∧
    ∃ a, ((opened (.ofString "/s") >>= loadArea).exec
        (runAll signatureAtRoot .nothing addSignature).1).1 = .ok a ∧ a.Proper ∧
      a.plan (.ofString "b/r/x") "p" =
        some (.add ⟨"p", .ofString "b/r/x", none, some ⟨.ofString "/p.sig"⟩⟩) := by
  have hfresh : Fresh (.ofString "/s") signatureAtRoot :=
    ⟨by decide +kernel, ((opened (.ofString "/s")).exec signatureAtRoot).2, by rfl,
      by decide +kernel, by decide +kernel⟩
  have hes : ∀ e ∈ addSignature, e.config.stateDirectory = .ofString "/s" ∧
      LeavesState (.ofString "/s") e.meanwhile := by
    intro e he
    simp only [addSignature, List.mem_cons, List.not_mem_nil, or_false] at he
    subst he
    exact ⟨rfl, leavesState_of_files fun _ => ⟨rfl, rfl⟩⟩
  obtain ⟨a, hload, hproper, -⟩ := staged_proper hfresh addSignature hes
  refine ⟨hfresh, hes, a, hload, hproper, ?_⟩
  -- the area is the one that follows the plan
  obtain ⟨b, hb, hplan⟩ := holds_runAll hfresh.holds addSignature hes
  rw [StagingArea.plan_empty] at hb hplan
  rw [Except.ok.inj (hload.symm.trans hb.load), hplan]
  decide +kernel

end CommandLine

end PackageStaging
