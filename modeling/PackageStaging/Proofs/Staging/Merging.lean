/-
# Merging is associative

Two patches may be merged into a commit one after the other, or merged with each other first
(`merge_assoc`).  Each way makes another union on the way and may be refused for it.  But both lead
to the same last union (`overlay_overlay`), and the unions on the way are parts of it: as a conflict
of a part is a conflict of the whole (`Sole.of_overlay`, `Sole.of_overlay_patch`), each way succeeds
exactly if the last union has every name in one bucket.  A staging area does not tell the two ways
apart either, since a commit that is put over another one takes its place (`put_put`).
-/
import PackageStaging.Proofs.Staging.Permuting

namespace PackageStaging

namespace Commit

variable {c d : Commit} {p q : Patch}

/-! ### Unions -/

/-- Putting two patches over a commit is putting the second one over the first, and the result over
the commit. -/
lemma overlay_overlay (c : Commit) (p q : Patch) :
    (c.overlay p).overlay q = c.overlay (.ofCommit ((ofPatch p).overlay q)) := by
  simp [overlay, NameMap.overlay_assoc]

lemma overlay_of_empty (hp : ofPatch p = .empty) (c : Commit) : c.overlay p = c := by
  simp [overlay, hp, empty]

lemma overlay_self (hp : ofPatch p = c) : c.overlay p = c := by
  simp [overlay, hp]

/-- A conflict of the patch is one of every commit that it is put over. -/
lemma Sole.of_overlay_patch (h : (c.overlay p).Sole) : (ofPatch p).Sole := by
  intro n a b ha hb
  exact h n a b (by simp [holds_overlay, ha]) (by simp [holds_overlay, hb])

/-! ### Merges -/

lemma merge_eq_ok_iff : c.merge p = .ok d ↔ (c.overlay p).Sole ∧ d = c.overlay p :=
  StagingArea.checked_eq_ok_iff

/-- Merging one patch after another succeeds if the last union has no conflict. -/
lemma merge_merge_eq_ok_iff : (c.merge p >>= fun u => u.merge q) = .ok d ↔
    ((c.overlay p).overlay q).Sole ∧ d = (c.overlay p).overlay q := by
  simp only [bind_eq_ok_iff, merge_eq_ok_iff]
  constructor
  · rintro ⟨u, ⟨-, rfl⟩, hsole, hd⟩
    exact ⟨hsole, hd⟩
  · rintro ⟨hsole, hd⟩
    exact ⟨_, ⟨hsole.of_overlay, rfl⟩, hsole, hd⟩

/-- Two patches can be merged with each other if they can be put over some commit. -/
lemma merge_of_sole (h : ((c.overlay p).overlay q).Sole) :
    (ofPatch p).merge q = .ok ((ofPatch p).overlay q) := by
  rw [overlay_overlay] at h
  exact merge_eq_ok_iff.2 ⟨h.of_overlay_patch, rfl⟩

end Commit

namespace StagingArea

variable {a b : StagingArea} {k : SectionKey} {s : SectionAddress} {p q : Patch}

/-! ### Staging one patch after another -/

lemma stage_ne_ok (hs : s.key? = none) (a b : StagingArea) (p : Patch) : a.stage s p ≠ .ok b :=
  bind_ne_ok fun c => by simp [setCommit_of_none hs]

lemma stage_stage_eq_ok_iff (hfilled : ∀ e ∈ a.entries, e.commit.isEmpty = false)
    (hs : s.key? = some k) : (a.stage s p >>= fun x => x.stage s q) = .ok b ↔
      (((a.pending k).overlay p).overlay q).Sole ∧
        b = a.put k (((a.pending k).overlay p).overlay q) := by
  -- the first union is empty only if nothing was pending, and then the key is not there
  have hput : (a.put k ((a.pending k).overlay p)).put k (((a.pending k).overlay p).overlay q) =
      a.put k (((a.pending k).overlay p).overlay q) := by
    refine put_put (fun hempty => (isEmpty_pending_iff hfilled).1 ?_) _
    rw [Commit.isEmpty_overlay, Bool.and_eq_true] at hempty
    exact hempty.2
  simp only [bind_eq_ok_iff, stage_eq_ok_iff hs]
  constructor
  · rintro ⟨x, ⟨-, rfl⟩, hsole, rfl⟩
    rw [pending_put, if_pos rfl] at hsole ⊢
    exact ⟨hsole, hput⟩
  · rintro ⟨hsole, rfl⟩
    refine ⟨_, ⟨hsole.of_overlay, rfl⟩, ?_⟩
    rw [pending_put, if_pos rfl]
    exact ⟨hsole, hput.symm⟩

end StagingArea

namespace Commit

open StagingArea (coreSection extraSection)

/-- Two patches are merged into a commit one after the other with the same success and the same
result as when they are merged with each other first.  A patch without operations changes nothing,
the empty commit becomes the patch, and a commit that is merged into itself stays as it is, all this
unless the commit has a conflict already.  So two patches are staged one after the other with the
same success and the same result as their merge, in every area without empty commits, as areas are
(`StagingArea.filled_edited`). -/
theorem merge_assoc (c : Commit) (p q : Patch) :
    (∀ d, (c.merge p >>= fun u => u.merge q) = .ok d ↔
      ((ofPatch p).merge q >>= fun m => c.merge (.ofCommit m)) = .ok d) ∧
    (∀ r, ofPatch r = .empty → (c.merge r = .ok c ↔ c.Sole)) ∧
    (∀ r, ofPatch r = c → (empty.merge r = .ok c ↔ c.Sole) ∧ (c.merge r = .ok c ↔ c.Sole)) ∧
    ∀ (a : StagingArea) (s : SectionAddress), (∀ e ∈ a.entries, e.commit.isEmpty = false) →
      ∀ b, (a.stage s p >>= fun x => x.stage s q) = .ok b ↔
        ((ofPatch p).merge q >>= fun m => a.stage s (.ofCommit m)) = .ok b := by
  refine ⟨fun d => ?_, fun r hr => ?_, fun r hr => ⟨?_, ?_⟩, fun a s hfilled b => ?_⟩
  · rw [merge_merge_eq_ok_iff]
    constructor
    · rintro ⟨hsole, rfl⟩
      refine bind_eq_ok_iff.2 ⟨_, merge_of_sole hsole, merge_eq_ok_iff.2 ?_⟩
      rw [← overlay_overlay]
      exact ⟨hsole, rfl⟩
    · intro h
      obtain ⟨m, hm, hd⟩ := bind_eq_ok_iff.1 h
      obtain ⟨-, rfl⟩ := merge_eq_ok_iff.1 hm
      rw [overlay_overlay]
      exact merge_eq_ok_iff.1 hd
  · rw [merge_eq_ok_iff, overlay_of_empty hr]
    simp
  · rw [merge_eq_ok_iff, empty_overlay, hr]
    simp
  · rw [merge_eq_ok_iff, overlay_self hr]
    simp
  · cases hs : s.key? with
    | none =>
      refine iff_of_false (bind_ne_ok fun x => ?_) (bind_ne_ok fun m => ?_)
      · exact StagingArea.stage_ne_ok hs x b q
      · exact StagingArea.stage_ne_ok hs a b _
    | some k =>
      rw [StagingArea.stage_stage_eq_ok_iff hfilled hs]
      constructor
      · rintro ⟨hsole, rfl⟩
        refine bind_eq_ok_iff.2 ⟨_, merge_of_sole hsole, (StagingArea.stage_eq_ok_iff hs).2 ?_⟩
        rw [← overlay_overlay]
        exact ⟨hsole, rfl⟩
      · intro h
        obtain ⟨m, hm, hb⟩ := bind_eq_ok_iff.1 h
        obtain ⟨-, rfl⟩ := merge_eq_ok_iff.1 hm
        rw [overlay_overlay]
        exact (StagingArea.stage_eq_ok_iff hs).1 hb

/-- A package that is to be copied is then to be copied elsewhere, in a section in which another one
is to be deleted. -/
theorem merge_assoc_copiedElsewhere :
    let staged : StagingArea :=
      StagingArea.empty.edited [.stage coreSection (.delete ["bash"])]
    let first : Patch := .copy ["gcc", "vim"] extraSection
    let second : Patch := .copy ["vim"] ⟨"testing", "extra", "x86_64"⟩
    ∃ both b, (ofPatch first).merge second = .ok both ∧
      staged.stage coreSection (.ofCommit both) = .ok b ∧
      (b.get? coreSection).map (fun c => (c.names, c.toCopy.get? "vim")) =
        some (["bash", "gcc", "vim"], some ⟨"testing", "extra", "x86_64"⟩) := by
  intro staged first second
  obtain ⟨b, hb⟩ : ∃ b, (staged.stage coreSection first >>= fun x =>
      x.stage coreSection second) = .ok b := ⟨_, rfl⟩
  obtain ⟨-, -, -, hstage⟩ := merge_assoc .empty first second
  obtain ⟨both, hboth, hstaged⟩ := bind_eq_ok_iff.1
    ((hstage staged coreSection (StagingArea.filled_edited _) b).1 hb)
  refine ⟨both, b, hboth, hstaged, ?_⟩
  cases hb
  decide +kernel

end Commit

end PackageStaging
