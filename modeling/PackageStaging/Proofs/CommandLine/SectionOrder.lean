/-
# The order of the sections

A batch for a section that has a commit puts its own commit in the place of the old one, unless
every package of the section was staged for something else and is named by the batch.  Then
rerouting has dropped the section before the batch is merged, and the section comes back as the
last one (`keys_restage`, `staging_order`).
-/
import PackageStaging.Proofs.CommandLine.LastWins
import PackageStaging.Proofs.Staging.Ordered

namespace PackageStaging

namespace StagingArea

open OrderedMap

variable {a b : StagingArea} {k : SectionKey} {s : SectionAddress} {act : Action}
  {c : Commit} {ns : List String} {n : String} {log : List Rerouting} {batch : Batch}

/-- Something that is staged under the key is not taken out for the batch. -/
def KeepsSome (a : StagingArea) (k : SectionKey) (batch : Batch) : Prop :=
  ∃ n op, a.operation? k n = some op ∧ (n ∈ batch.names → op.action = batch.action)

lemma mem_keys_iff_operation? (h : a.WellFormed) :
    k ∈ a.keys ↔ ∃ n op, a.operation? k n = some op := by
  rw [mem_keys_iff, find?_isSome_iff h]

lemma keys_put_of_mem (h : k ∈ (a.put k c).keys) :
    (a.put k c).keys = if k ∈ a.keys then a.keys else a.keys ++ [k] := by
  rw [keys_put, mem_keysWith, if_pos rfl] at h
  rw [keys_put, keysWith, if_pos h]

lemma keys_put_of_not_mem (h : k ∉ (a.put k c).keys) :
    (a.put k c).keys = a.keys.filter (· ≠ k) := by
  rw [keys_put, mem_keysWith, if_pos rfl] at h
  rw [keys_put, keysWith, if_neg h]

/-- A package is unstaged from a section that is there, which is dropped with its last package. -/
lemma keys_unstage (hs : s.key? = some k) (hb : a.unstage s n = .ok b) :
    b.keys = if k ∈ b.keys then a.keys else a.keys.filter (· ≠ k) := by
  rw [unstage_eq hs] at hb
  split at hb
  · next act d hr =>
    obtain ⟨c, hc, -⟩ := Option.bind_eq_some_iff.1 hr
    have hk : k ∈ a.keys := mem_keys_iff.2 (by rw [hc]; rfl)
    have hput := Except.ok.inj hb
    subst hput
    split_ifs with hmem
    · rw [keys_put_of_mem hmem, if_pos hk]
    · exact keys_put_of_not_mem hmem
  · cases hb

/-- Rerouting leaves the other sections where they are. -/
lemma keys_reroute (hs : s.key? = some k) (hb : a.reroute s act ns = .ok (b, log)) :
    b.keys = if k ∈ b.keys then a.keys else a.keys.filter (· ≠ k) := by
  induction ns generalizing a log with
  | nil =>
    obtain ⟨rfl, -⟩ := Prod.mk.inj (Except.ok.inj hb)
    split_ifs with hk
    · rfl
    · have hall : ∀ k' ∈ a.keys, decide (k' ≠ k) = true := by
        intro k' hk'
        rw [decide_eq_true_eq]
        rintro rfl
        exact hk hk'
      exact (List.filter_eq_self.2 hall).symm
  | cons n ns ih =>
    rw [reroute] at hb
    split at hb
    · exact ih hb
    · obtain ⟨c, hc, hrest⟩ := bind_eq_ok_iff.1 hb
      obtain ⟨⟨d, later⟩, hd, hlast⟩ := bind_eq_ok_iff.1 hrest
      obtain ⟨rfl, -⟩ := Prod.mk.inj (Except.ok.inj hlast)
      have hfirst := keys_unstage hs hc
      have hlater := ih hd
      split_ifs at hlater ⊢ with hmem
      · -- the section is still there, so it was not dropped before either
        have hbefore : k ∈ c.keys := hlater ▸ hmem
        rw [hlater, hfirst, if_pos hbefore]
      · rw [hlater, hfirst]
        split_ifs
        · rfl
        · rw [List.filter_filter]
          simp

/-- What becomes of the order when a batch is staged in a section that is there. -/
theorem keys_restage (h : a.WellFormed) (hs : s.KeyedBy k) (hk : k ∈ a.keys)
    (hb : a.restage s batch = .ok (b, log)) :
    (a.KeepsSome k batch → b.keys = a.keys) ∧
      (¬a.KeepsSome k batch → b.keys = a.keys.filter (· ≠ k) ++ [k]) := by
  obtain ⟨n, op, hop⟩ := (mem_keys_iff_operation? h).1 hk
  obtain ⟨hwf, hmap⟩ := restage_spec h hs.1 hs.address hb
  obtain ⟨⟨c, log'⟩, hc, hrest⟩ := bind_eq_ok_iff.1 hb
  obtain ⟨d, hd, hlast⟩ := bind_eq_ok_iff.1 hrest
  obtain ⟨rfl, -⟩ := Prod.mk.inj (Except.ok.inj hlast)
  obtain ⟨hwf', hreroute⟩ := reroute_spec h hs.1 hc
  have hkeys := keys_reroute hs.1 hc
  -- what was staged under the key is staged again or replaced, so the section is there
  have hmem : k ∈ d.keys := by
    refine (mem_keys_iff_operation? hwf).2 ⟨n, ?_⟩
    rw [hmap, if_pos rfl, hop]
    cases batch.operation? n with
    | none => exact ⟨op, rfl⟩
    | some op' => exact ⟨op', rfl⟩
  have hmerged : d.keys = if k ∈ c.keys then c.keys else c.keys ++ [k] := by
    rw [stage_eq hs.1] at hd
    cases hm : (((c.find? k).getD .empty).overlay batch.patch).checked with
    | error e =>
      rw [hm] at hd
      cases hd
    | ok merged =>
      rw [hm] at hd
      have hput := Except.ok.inj hd
      subst hput
      exact keys_put_of_mem hmem
  have hkeeps : k ∈ c.keys ↔ a.KeepsSome k batch := by
    rw [mem_keys_iff_operation? hwf']
    refine exists_congr fun m => exists_congr fun op' => ?_
    rw [hreroute]
    by_cases hm : m ∈ batch.names
    · rw [if_pos ⟨rfl, hm⟩, Option.filter_eq_some_iff, decide_eq_true_eq]
      simp [hm]
    · rw [if_neg fun hboth => hm hboth.2]
      simp [hm]
  rw [← hkeeps]
  constructor
  · intro hthere
    rw [hmerged, if_pos hthere, hkeys, if_pos hthere]
  · intro hgone
    rw [hmerged, if_neg hgone, hkeys, if_neg hgone]

/-- A section that is moved to the end has moved unless it was the last one. -/
lemma moved_eq_iff {keys : List SectionKey} (hdistinct : keys.Nodup) :
    keys.filter (· ≠ k) ++ [k] = keys ↔ keys.getLast? = some k := by
  constructor
  · intro heq
    rw [← heq, List.getLast?_concat]
  · intro hlast
    obtain ⟨l, rfl⟩ := List.getLast?_eq_some_iff.1 hlast
    have hall : ∀ k' ∈ l, decide (k' ≠ k) = true := by
      intro k' hk'
      rw [decide_eq_true_eq]
      exact (List.nodup_append.1 hdistinct).2.2 k' hk' k (.head _)
    rw [List.filter_append, List.filter_eq_self.2 hall]
    simp

end StagingArea

namespace CommandLine

open StateDirectory StagingArea

variable {root : Path} {a b b' : StagingArea} {w : World} {config : Config} {command : Command}
  {s : SectionAddress} {batch : Batch} {k : SectionKey}

/-- A command that stages a batch restages it in the area that was loaded. -/
lemma restages_of_perform (h : Loads root a w) (hroot : config.stateDirectory = root)
    (hwork : command.work? w.workingDirectory = some (.stage s batch)) (hs : s.key? = some k)
    (hok : ((command.perform config).exec w).1 = .ok ()) :
    ∃ b log, Loads root b ((command.perform config).exec w).2 ∧ s.KeyedBy k ∧
      a.restage s batch = .ok (b, log) := by
  obtain ⟨b, hmakes, hb⟩ := loads_perform h hroot hok
  unfold Command.Makes at hmakes
  rw [hwork] at hmakes
  obtain ⟨k', log, hkeyed, hrestage⟩ := hmakes
  obtain rfl : k' = k := Option.some.inj (hkeyed.1.symm.trans hs)
  exact ⟨b, log, hb, hkeyed, hrestage⟩

/-- What becomes of the order of the sections when a command stages a batch in a section that has a
commit: it stays as it is if something of the section is not rerouted, and else the section comes
last. -/
theorem staging_order (h : Loads root a w) (hroot : config.stateDirectory = root)
    (hwork : command.work? w.workingDirectory = some (.stage s batch)) (hs : s.key? = some k)
    (hk : k ∈ a.keys) (hok : ((command.perform config).exec w).1 = .ok ()) :
    ∃ b, Loads root b ((command.perform config).exec w).2 ∧
      (a.KeepsSome k batch → b.keys = a.keys) ∧
      (¬a.KeepsSome k batch → b.keys = a.keys.filter (· ≠ k) ++ [k]) ∧
      (b.keys = a.keys ↔ a.KeepsSome k batch ∨ a.keys.getLast? = some k) := by
  have hwf := h.wellFormed
  obtain ⟨b, log, hb, hkeyed, hrestage⟩ := restages_of_perform h hroot hwork hs hok
  obtain ⟨hstays, hmoves⟩ := keys_restage hwf hkeyed hk hrestage
  refine ⟨b, hb, hstays, hmoves, ?_⟩
  by_cases hkeeps : a.KeepsSome k batch
  · simp [hkeeps, hstays hkeeps]
  · have hdistinct : a.keys.Nodup := hwf.distinct
    rw [hmoves hkeeps, moved_eq_iff hdistinct]
    simp [hkeeps]

/-! ### A section that loses its place -/

/-- One package is staged for deletion in each of two sections. -/
def twoDeletions : StagingArea :=
  ⟨[⟨⟨"b/r/x"⟩, .ofPatch (.delete ["p"])⟩, ⟨⟨"c/r/x"⟩, .ofPatch (.delete ["q"])⟩]⟩

/-- What is kept for them. -/
def contentOfTwo : Bytes :=
  match Wire.stagingAreaValue twoDeletions with
  | .ok v => Utf8.encode v.prettyText
  | .error _ => []

/-- The world in which this is kept in the state directory `/s`. -/
def worldOfTwo : World :=
  { World.empty with files := ⟨[([Utf8.encode "s"], .directory),
    ([Utf8.encode "s", Utf8.encode stagedName], .file contentOfTwo)]⟩ }

/-- The configuration with this state directory. -/
def configOfTwo : Config := ⟨⟨[], none, .unstructured [], none, none⟩, .ofString "/s", 0⟩

/-- The package of the first section is to be copied instead. -/
def copyInstead : Command := .copy "b/r/x" "d/r/x" ["p"]

lemma wellFormed_twoDeletions : twoDeletions.WellFormed := by
  have hchecked : ofEntries twoDeletions.entries = .ok twoDeletions := by decide +kernel
  exact (ofEntries_eq_ok_iff.1 hchecked).1

lemma stored_twoDeletions : Stored twoDeletions (some contentOfTwo) := by
  have hfilled : ¬twoDeletions.isEmpty = true := by decide
  rw [Stored, if_neg hfilled]
  exact ⟨_, rfl, rfl⟩

lemma loads_twoDeletions : Loads (.ofString "/s") twoDeletions worldOfTwo := by
  have hholding : Holding (.ofString "/s") [Utf8.encode "s"] (some contentOfTwo) worldOfTwo := by
    refine ⟨⟨rfl, ?_⟩, rfl, ?_⟩
    · rw [if_neg (by decide +kernel)]
      exact ⟨false, by decide +kernel⟩
    · decide +kernel
  exact ⟨_, hasFile_of_holding hholding, stored_twoDeletions.reads wellFormed_twoDeletions⟩

/-- The batch that the command stages. -/
def copyBatch : Batch := .copy ["p"] (.ofString "d/r/x")

lemma copyInstead_isOk : ((copyInstead.perform configOfTwo).exec worldOfTwo).1 = .ok () := by
  have hopening : ((copyInstead.opening configOfTwo).exec worldOfTwo).1 =
      .ok (some (⟨.ofString "/s"⟩, .stage (.ofString "b/r/x") copyBatch)) := by
    decide +kernel
  have hrestage : twoDeletions.restage (.ofString "b/r/x") copyBatch =
      .ok (⟨[⟨⟨"c/r/x"⟩, .ofPatch (.delete ["q"])⟩, ⟨⟨"b/r/x"⟩, .ofPatch copyBatch.patch⟩]⟩,
        [⟨"p", .delete, .copy⟩]) := by
    decide +kernel
  refine perform_stage_isOk loads_twoDeletions rfl hopening fun b log hb => ?_
  obtain ⟨rfl, -⟩ := Prod.mk.inj (Except.ok.inj (hrestage.symm.trans hb))
  exact ⟨_, rfl⟩

lemma not_keepsSome : ¬twoDeletions.KeepsSome ⟨"b/r/x"⟩ copyBatch := by
  rintro ⟨n, op, hop, hkept⟩
  have hdelete : (Batch.delete ["p"]).operation? n = some op := by
    rw [← Batch.operation?_patch]
    exact hop
  rw [Batch.operation?] at hdelete
  split_ifs at hdelete with hn
  obtain rfl := Option.some.inj hdelete
  have hcopy : Operation.delete.action = copyBatch.action := hkept hn
  cases hcopy

/-- The section whose package is rerouted comes last afterwards. -/
theorem staging_order_copy :
    Loads (.ofString "/s") twoDeletions worldOfTwo ∧
    copyInstead.work? worldOfTwo.workingDirectory =
      some (.stage (.ofString "b/r/x") copyBatch) ∧
    ((copyInstead.perform configOfTwo).exec worldOfTwo).1 = .ok () ∧
    ∃ b, Loads (.ofString "/s") b ((copyInstead.perform configOfTwo).exec worldOfTwo).2 ∧
      b.keys = [⟨"c/r/x"⟩, ⟨"b/r/x"⟩] := by
  have hwork : copyInstead.work? worldOfTwo.workingDirectory =
      some (.stage (.ofString "b/r/x") copyBatch) := rfl
  have hkey : (SectionAddress.ofString "b/r/x").key? = some ⟨"b/r/x"⟩ := by decide +kernel
  have hmem : (⟨"b/r/x"⟩ : SectionKey) ∈ twoDeletions.keys := by decide
  obtain ⟨b, hb, -, hmoved, -⟩ :=
    staging_order loads_twoDeletions rfl hwork hkey hmem copyInstead_isOk
  refine ⟨loads_twoDeletions, hwork, copyInstead_isOk, b, hb, ?_⟩
  rw [hmoved not_keepsSome]
  decide

/-- A command that stages a batch in a section that has a commit need not keep the order. -/
theorem staging_reorders :
    ¬∀ (root : Path) (a : StagingArea) (w : World) (config : Config) (command : Command)
      (s : SectionAddress) (batch : Batch) (k : SectionKey), Loads root a w →
      config.stateDirectory = root →
      command.work? w.workingDirectory = some (.stage s batch) → s.key? = some k → k ∈ a.keys →
      ((command.perform config).exec w).1 = .ok () →
      ∃ b, Loads root b ((command.perform config).exec w).2 ∧ b.keys = a.keys := by
  intro hclaim
  have hwork : copyInstead.work? worldOfTwo.workingDirectory =
      some (.stage (.ofString "b/r/x") copyBatch) := rfl
  have hkey : (SectionAddress.ofString "b/r/x").key? = some ⟨"b/r/x"⟩ := by decide +kernel
  have hmem : (⟨"b/r/x"⟩ : SectionKey) ∈ twoDeletions.keys := by decide
  obtain ⟨b, hb, hsame⟩ := hclaim _ _ _ _ _ _ _ _ loads_twoDeletions rfl hwork hkey hmem
    copyInstead_isOk
  obtain ⟨b', log, hb', hkeyed, hrestage⟩ :=
    restages_of_perform loads_twoDeletions rfl hwork hkey copyInstead_isOk
  obtain rfl : b = b' := Except.ok.inj (hb.load.symm.trans hb'.load)
  rw [(keys_restage wellFormed_twoDeletions hkeyed hmem hrestage).2 not_keepsSome] at hsame
  exact absurd hsame (by decide)

end CommandLine

end PackageStaging
