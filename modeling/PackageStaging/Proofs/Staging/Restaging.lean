/-
# The last batch wins

A batch takes its packages out of all other buckets before it is merged, so it is never refused
because of what was staged before (`restage_isOk`), and afterwards exactly its packages have its
operations (`restage_spec`).
-/
import PackageStaging.Proofs.Staging.Area

namespace PackageStaging

namespace Commit

variable {c : Commit} {n : String}

lemma holds_overlay (c : Commit) (p : Patch) (a : Action) (n : String) :
    (c.overlay p).holds a n = ((ofPatch p).holds a n || c.holds a n) := by
  cases a with
  | add => simp [holds, overlay, NameMap.contains]
  | delete => simp [holds, overlay, NameMap.contains]
  | copy => simp [holds, overlay, NameMap.contains]
  | move => simp [holds, overlay, NameMap.contains]

/-- A batch holds its names in the bucket of its kind. -/
lemma holds_patch {b : Batch} {a : Action} (h : (ofPatch b.patch).holds a n = true) :
    a = b.action ∧ n ∈ b.names := by
  have hget := fun names (v : SectionAddress) => NameMap.get?_ofList_const names v n
  have hget' := fun names => NameMap.get?_ofList_const names () n
  cases b with
  | add uploads =>
    rw [Batch.names, NameMap.mem_names_iff]
    cases a <;> simp_all [holds, ofPatch, Batch.patch, Patch.add, Patch.none, NameMap.contains,
      Batch.action]
  | delete ns =>
    cases a <;> simp_all [holds, ofPatch, Batch.patch, Patch.delete, Patch.none, NameMap.contains,
      Batch.action, Batch.names, NameSet.ofNames]
  | copy ns target =>
    cases a <;> simp_all [holds, ofPatch, Batch.patch, Patch.copy, Patch.none, NameMap.contains,
      Batch.action, Batch.names, Patch.transfer]
  | move ns target =>
    cases a <;> simp_all [holds, ofPatch, Batch.patch, Patch.move, Patch.none, NameMap.contains,
      Batch.action, Batch.names, Patch.transfer]

/-- A batch meets no conflict if its names are staged for the same or for nothing. -/
lemma Sole.overlay {b : Batch} (h : c.Sole)
    (hb : ∀ n ∈ b.names, ∀ a, c.holds a n = true → a = b.action) :
    (c.overlay b.patch).Sole := by
  intro n a a' ha ha'
  rw [holds_overlay, Bool.or_eq_true] at ha ha'
  rcases ha with ha | ha
  · obtain ⟨rfl, hn⟩ := holds_patch ha
    rcases ha' with ha' | ha'
    · exact (holds_patch ha').1.symm
    · exact (hb n hn a' ha').symm
  · rcases ha' with ha' | ha'
    · obtain ⟨rfl, hn⟩ := holds_patch ha'
      exact hb n hn a ha
    · exact h n a a' ha ha'

lemma sole_empty : empty.Sole := by
  intro n a b ha
  cases a <;> exact nomatch ha

/-- In a commit without conflicts, a bucket that holds a name is that of its operation. -/
lemma Sole.action_eq (h : c.Sole) {a : Action} (ha : c.holds a n = true) :
    (c.operation? n).map Operation.action = some a := by
  rw [← actionOf_eq]
  cases hact : c.actionOf n with
  | none =>
    rw [actionOf_eq, Option.map_eq_none_iff, operation?_eq_none] at hact
    rw [hact a] at ha
    exact nomatch ha
  | some b => rw [h n b a (holds_of_actionOf hact) ha]

end Commit

namespace StagingArea

variable {a b : StagingArea} {k : SectionKey} {s : SectionAddress} {act : Action}
  {ns : List String} {log : List Rerouting}

lemma actionOf_eq (hs : s.key? = some k) (a : StagingArea) (n : String) :
    a.actionOf s n = (a.operation? k n).map Operation.action := by
  rw [actionOf, get?_of_key? hs, operation?]
  cases a.find? k with
  | none => rfl
  | some c => exact Commit.actionOf_eq c n

/-- Rerouting takes out what the names of the batch are staged for, unless it is the batch's kind
of operation, and nothing else. -/
lemma reroute_spec (h : a.WellFormed) (hs : s.key? = some k)
    (hb : a.reroute s act ns = .ok (b, log)) :
    b.WellFormed ∧ ∀ k' m, b.operation? k' m =
      if k' = k ∧ m ∈ ns then (a.operation? k m).filter fun op => op.action = act
      else a.operation? k' m := by
  -- every name may drop the commit of the section, so the area varies along the induction
  induction ns generalizing a log with
  | nil =>
    obtain ⟨rfl, -⟩ := Prod.mk.inj (Except.ok.inj hb)
    exact ⟨h, fun k' m => by simp⟩
  | cons n ns ih =>
    rw [reroute, actionOf_eq hs] at hb
    split at hb
    · next hsame =>
      obtain ⟨hwf, hmap⟩ := ih h hb
      refine ⟨hwf, fun k' m => ?_⟩
      rw [hmap]
      by_cases hm : k' = k ∧ m = n
      · -- the name was staged for this kind before, or for nothing
        obtain ⟨rfl, rfl⟩ := hm
        have hkept : (a.operation? k' m).filter (fun op => op.action = act) =
            a.operation? k' m := by
          cases hop : a.operation? k' m with
          | none => rfl
          | some op =>
            rw [hop, Option.map_some, Option.filter_eq_none_iff] at hsame
            have haction : op.action = act := by simpa using hsame
            simp [haction]
        rw [hkept, ite_self, ite_self]
      · have hiff : (k' = k ∧ m ∈ n :: ns) ↔ k' = k ∧ m ∈ ns := by
          rw [List.mem_cons]
          tauto
        simp only [hiff]
    · next before hother =>
      obtain ⟨c, hc, hrest⟩ := bind_eq_ok_iff.1 hb
      obtain ⟨⟨d, later⟩, hd, hlast⟩ := bind_eq_ok_iff.1 hrest
      obtain ⟨rfl, -⟩ := Prod.mk.inj (Except.ok.inj hlast)
      obtain ⟨hwf, -, hgone⟩ := unstage_spec h hs hc
      obtain ⟨hwf', hmap⟩ := ih hwf hd
      refine ⟨hwf', fun k' m => ?_⟩
      rw [hmap, hgone, hgone]
      by_cases hm : m = n
      · subst hm
        by_cases hk : k' = k
        · -- the name was staged for something else, so the filter takes it out, too
          obtain ⟨hact, hne⟩ := Option.filter_eq_some_iff.1 hother
          obtain ⟨op, hop, rfl⟩ := Option.map_eq_some_iff.1 hact
          have hout : (some op).filter (fun op => op.action = act) = none := by
            rw [Option.filter_eq_none_iff]
            simpa using hne
          simp [hk, hop, hout]
        · simp [hk]
      · simp [hm]

lemma reroute_isOk (h : a.WellFormed) (hs : s.key? = some k) (act : Action) (ns : List String) :
    ∃ r, a.reroute s act ns = .ok r := by
  induction ns generalizing a with
  | nil => exact ⟨_, rfl⟩
  | cons n ns ih =>
    rw [reroute, actionOf_eq hs]
    split
    · exact ih h
    · next before hbefore =>
      have hstaged : (a.operation? k n).isSome := by
        obtain ⟨hact, -⟩ := Option.filter_eq_some_iff.1 hbefore
        obtain ⟨op, hop, -⟩ := Option.map_eq_some_iff.1 hact
        rw [hop]
        rfl
      obtain ⟨c, hc⟩ := unstage_isOk hs hstaged
      obtain ⟨⟨d, later⟩, hd⟩ := ih (unstage_spec h hs hc).1
      exact ⟨_, bind_eq_ok_iff.2 ⟨c, hc, bind_eq_ok_iff.2 ⟨(d, later), hd, rfl⟩⟩⟩

/-- The commit of a section, which is empty if nothing is staged. -/
lemma operation?_getD (a : StagingArea) (k : SectionKey) (n : String) :
    ((a.find? k).getD .empty).operation? n = a.operation? k n := by
  rw [operation?]
  cases a.find? k with
  | none => rfl
  | some c => rfl

lemma sole_getD (h : a.WellFormed) (k : SectionKey) : ((a.find? k).getD .empty).Sole := by
  cases hc : a.find? k with
  | none => exact Commit.sole_empty
  | some c => exact sole_of_find? h hc

lemma stage_eq (hs : s.key? = some k) (a : StagingArea) (p : Patch) :
    a.stage s p = (((a.find? k).getD .empty).overlay p).checked.map (a.put k) := by
  rw [stage, get?_of_key? hs, Commit.merge]
  cases (((a.find? k).getD .empty).overlay p).checked with
  | error e => rfl
  | ok c =>
    have hset : a.setCommit s c = .ok (a.put k c) := by
      simp only [setCommit, requireKey, hs]
      rfl
    exact hset

lemma checked_eq_ok_iff {c d : Commit} : c.checked = .ok d ↔ c.Sole ∧ d = c := by
  rw [← Commit.conflict?_eq_none, Commit.checked]
  cases c.conflict? with
  | none => simp [eq_comm]
  | some n => simp

/-- After a batch, its packages have its operations, and everything else is as it was. -/
theorem restage_spec (h : a.WellFormed) (hs : s.key? = some k) (hk : k.address.key? = some k)
    {batch : Batch} (hb : a.restage s batch = .ok (b, log)) :
    b.WellFormed ∧ ∀ k' m, b.operation? k' m =
      if k' = k then (batch.operation? m).or (a.operation? k m) else a.operation? k' m := by
  obtain ⟨⟨c, log'⟩, hc, hrest⟩ := bind_eq_ok_iff.1 hb
  obtain ⟨d, hd, hlast⟩ := bind_eq_ok_iff.1 hrest
  obtain ⟨rfl, -⟩ := Prod.mk.inj (Except.ok.inj hlast)
  obtain ⟨hwf, hmap⟩ := reroute_spec h hs hc
  rw [stage_eq hs] at hd
  obtain ⟨merged, hmerged, rfl⟩ : ∃ merged, (((c.find? k).getD .empty).overlay
      batch.patch).checked = .ok merged ∧ c.put k merged = d := by
    cases hm : (((c.find? k).getD .empty).overlay batch.patch).checked with
    | error e => rw [hm] at hd; exact nomatch hd
    | ok merged => rw [hm] at hd; exact ⟨merged, rfl, Except.ok.inj hd⟩
  obtain ⟨hsole, rfl⟩ := checked_eq_ok_iff.1 hmerged
  refine ⟨hwf.put hk hsole, fun k' m => ?_⟩
  rw [operation?_put, Commit.operation?_overlay hsole, Batch.operation?_patch, operation?_getD]
  split_ifs with hkey
  · -- the batch decides for its own names; rerouting has not touched any other one
    cases hm : batch.operation? m with
    | some op => rfl
    | none =>
      have hnot : m ∉ batch.names := by
        rw [← Batch.operation?_isSome_iff, hm]
        exact Bool.false_ne_true
      rw [Option.none_or, Option.none_or, hmap, if_neg fun hboth => hnot hboth.2]
  · rw [hmap, if_neg fun hboth => hkey hboth.1]

/-- Nothing that is staged stands in the way of a batch. -/
theorem restage_isOk (h : a.WellFormed) (hs : s.key? = some k) (batch : Batch) :
    ∃ r, a.restage s batch = .ok r := by
  obtain ⟨⟨c, log⟩, hc⟩ := reroute_isOk h hs batch.action batch.names
  obtain ⟨hwf, hmap⟩ := reroute_spec h hs hc
  -- after rerouting, the names of the batch are staged for its kind of operation or not at all
  have hsole : (((c.find? k).getD .empty).overlay batch.patch).Sole := by
    refine (sole_getD hwf k).overlay fun n hn act hact => ?_
    have haction := (sole_getD hwf k).action_eq hact
    rw [operation?_getD] at haction
    obtain ⟨op, hop, hopact⟩ := Option.map_eq_some_iff.1 haction
    rw [hmap, if_pos ⟨rfl, hn⟩, Option.filter_eq_some_iff] at hop
    exact hopact.symm.trans (by simpa using hop.2)
  have hstage : c.stage s batch.patch =
      .ok (c.put k (((c.find? k).getD .empty).overlay batch.patch)) := by
    rw [stage_eq hs, checked_eq_ok_iff.2 ⟨hsole, rfl⟩]
    rfl
  exact ⟨_, bind_eq_ok_iff.2 ⟨(c, log), hc, bind_eq_ok_iff.2 ⟨_, hstage, rfl⟩⟩⟩

end StagingArea

end PackageStaging
