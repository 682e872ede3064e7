/-
# Unstaging undoes staging

A patch whose names are not staged in a section is staged and then taken out again, name by name and
in any order: the area is then the old one, with its sections in the old order (`unstage_undoes`).
While this goes on the commit of the section is the old one with the rest of the patch over it
(`OverlaidBy`), so it is not empty, and the section keeps its place, until the last name is taken
out; with it the section goes if it was not there before.
-/
import PackageStaging.Proofs.Staging.Merging

namespace PackageStaging

namespace Commit

variable {c d : Commit} {p : Patch} {n m : String} {a b : Action} {ns : List String}

/-! ### What a bucket says of a name -/

/-- The operation that a bucket has for a name. -/
def operationIn? (c : Commit) : Action → String → Option Operation
  | .add, n => (c.toAdd.get? n).map .add
  | .delete, n => (c.toDelete.get? n).map fun _ => .delete
  | .copy, n => (c.toCopy.get? n).map .copy
  | .move, n => (c.toMove.get? n).map .move

lemma isSome_operationIn? (c : Commit) (a : Action) (n : String) :
    (c.operationIn? a n).isSome = c.holds a n := by
  cases a <;> simp [operationIn?, holds, NameMap.contains]

lemma operationIn?_eq_none : c.operationIn? a n = none ↔ c.holds a n = false := by
  rw [← isSome_operationIn?, Option.isSome_eq_false_iff, Option.isNone_iff_eq_none]

/-- A commit is determined by what its buckets say of each name. -/
lemma ext_operationIn? (h : ∀ a n, c.operationIn? a n = d.operationIn? a n) : c = d := by
  obtain ⟨cAdd, cDelete, cCopy, cMove⟩ := c
  obtain ⟨dAdd, dDelete, dCopy, dMove⟩ := d
  have hadd : cAdd = dAdd := NameMap.ext fun n =>
    Option.map_injective (fun _ _ => Operation.add.inj) (h .add n)
  have hdelete : cDelete = dDelete := NameMap.ext fun n =>
    Option.map_injective (fun _ _ _ => rfl) (h .delete n)
  have hcopy : cCopy = dCopy := NameMap.ext fun n =>
    Option.map_injective (fun _ _ => Operation.copy.inj) (h .copy n)
  have hmove : cMove = dMove := NameMap.ext fun n =>
    Option.map_injective (fun _ _ => Operation.move.inj) (h .move n)
  rw [hadd, hdelete, hcopy, hmove]

lemma operationIn?_overlay (c : Commit) (p : Patch) (a : Action) (n : String) :
    (c.overlay p).operationIn? a n = ((ofPatch p).operationIn? a n).or (c.operationIn? a n) := by
  cases a <;> simp [operationIn?, overlay, Option.map_or]

lemma operationIn?_without (c : Commit) (n m : String) (a b : Action) :
    (c.without n b).operationIn? a m = if a = b ∧ m = n then none else c.operationIn? a m := by
  by_cases hmn : m = n
  · subst hmn
    cases a <;> cases b <;> simp [without, operationIn?]
  · cases a <;> cases b <;> simp [without, operationIn?, hmn, Ne.symm hmn]

lemma mem_names_iff : n ∈ c.names ↔ ∃ a, c.holds a n = true := by
  simp only [names, List.mem_append, mem_names_bucket]
  constructor
  · rintro (((h | h) | h) | h)
    · exact ⟨.add, h⟩
    · exact ⟨.delete, h⟩
    · exact ⟨.copy, h⟩
    · exact ⟨.move, h⟩
  · rintro ⟨a, h⟩
    cases a with
    | add => exact .inl (.inl (.inl h))
    | delete => exact .inl (.inl (.inr h))
    | copy => exact .inl (.inr h)
    | move => exact .inr h

lemma actionOf_eq_none : c.actionOf n = none ↔ ∀ a, c.holds a n = false := by
  rw [actionOf_eq, Option.map_eq_none_iff, operation?_eq_none]

/-- Without conflicts, the bucket that holds a name is the one that is found. -/
lemma Sole.actionOf_eq (h : c.Sole) (ha : c.holds a n = true) : c.actionOf n = some a := by
  rw [Commit.actionOf_eq]
  exact h.action_eq ha

/-- Without conflicts, a name that is taken out of the bucket that holds it is in none. -/
lemma Sole.operationIn?_without (h : c.Sole) (ha : c.holds a n = true) (b : Action) (m : String) :
    (c.without n a).operationIn? b m = if m = n then none else c.operationIn? b m := by
  rw [Commit.operationIn?_without]
  by_cases hm : m = n
  · subst hm
    by_cases hb : b = a
    · simp [hb]
    · have hnone : c.operationIn? b m = none := by
        rw [operationIn?_eq_none, ← Bool.not_eq_true]
        exact fun hheld => hb (h m b a hheld ha)
      simp [hb, hnone]
  · simp [hm]

/-! ### The rest of a patch -/

/-- The commit `d` is the commit `c` with the part of the patch over it that the names of the list
are in. -/
def OverlaidBy (c : Commit) (p : Patch) (ns : List String) (d : Commit) : Prop :=
  ∀ a n, d.operationIn? a n =
    if n ∈ ns then (c.overlay p).operationIn? a n else c.operationIn? a n

/-- With all its names, it is the whole patch. -/
lemma overlaidBy_names (hns : ∀ n ∈ (ofPatch p).names, n ∈ ns) :
    OverlaidBy c p ns (c.overlay p) := by
  intro a n
  split_ifs with hn
  · rfl
  · have hnone : (ofPatch p).operationIn? a n = none := by
      rw [operationIn?_eq_none, ← Bool.not_eq_true]
      exact fun h => hn (hns n (mem_names_iff.2 ⟨a, h⟩))
    rw [operationIn?_overlay, hnone, Option.none_or]

namespace OverlaidBy

/-- Without any name, it is the commit as it was. -/
lemma eq_of_nil (h : OverlaidBy c p [] d) : d = c :=
  ext_operationIn? fun a n => by simpa using h a n

/-- A name that is left is still in its bucket. -/
lemma holds (h : OverlaidBy c p (n :: ns) d) (ha : (ofPatch p).holds a n = true) :
    d.holds a n = true := by
  rw [← isSome_operationIn?, h a n, if_pos (.head _), isSome_operationIn?, holds_overlay, ha,
    Bool.true_or]

/-- As long as a name is left, the commit is not empty. -/
lemma isEmpty_eq_false (h : OverlaidBy c p (n :: ns) d) (hn : n ∈ (ofPatch p).names) :
    d.isEmpty = false := by
  obtain ⟨a, ha⟩ := mem_names_iff.1 hn
  have hheld := h.holds ha
  refine eq_false_of_ne_true fun hempty => ?_
  rw [operation?_eq_none.1 (isEmpty_iff.1 hempty n) a] at hheld
  cases hheld

/-- A part of the patch brings no conflict if the whole patch does not. -/
lemma sole (h : OverlaidBy c p ns d) (hsole : (c.overlay p).Sole) : d.Sole := by
  intro n a b ha hb
  rw [← isSome_operationIn?, h] at ha hb
  by_cases hn : n ∈ ns
  · rw [if_pos hn, isSome_operationIn?] at ha hb
    exact hsole n a b ha hb
  · rw [if_neg hn, isSome_operationIn?] at ha hb
    exact hsole.of_overlay n a b ha hb

/-- The next name is taken out of its bucket, and then it is in none. -/
lemma remove? (h : OverlaidBy c p (n :: ns) d) (hsole : (c.overlay p).Sole)
    (hfresh : c.actionOf n = none) (hn : n ∈ (ofPatch p).names) (hnew : n ∉ ns) :
    ∃ act d', d.remove? n = some (act, d') ∧ OverlaidBy c p ns d' ∧
      ∀ a m, d'.operationIn? a m = if m = n then none else d.operationIn? a m := by
  obtain ⟨act, hact⟩ := mem_names_iff.1 hn
  have hgone := (h.sole hsole).operationIn?_without (h.holds hact)
  have hremove : d.remove? n = some (act, d.without n act) := by
    rw [Commit.remove?, (h.sole hsole).actionOf_eq (h.holds hact)]
    rfl
  refine ⟨act, _, hremove, fun a m => ?_, hgone⟩
  rw [hgone]
  by_cases hm : m = n
  · rw [if_pos hm, hm, if_neg hnew, operationIn?_eq_none.2 (actionOf_eq_none.1 hfresh a)]
  · rw [if_neg hm, h a m]
    simp [hm]

end OverlaidBy

end Commit

namespace StagingArea

variable {a b : StagingArea} {k : SectionKey} {s : SectionAddress} {p : Patch} {c d d' : Commit}
  {n : String} {ns before : List String} {act : Action}

/-- The operation that a bucket of the commit under a key has for a name. -/
def operationIn? (a : StagingArea) (k : SectionKey) (act : Action) (n : String) :
    Option Operation :=
  (a.find? k).bind fun c => c.operationIn? act n

lemma operationIn?_eq_pending (a : StagingArea) (k : SectionKey) (act : Action) (n : String) :
    a.operationIn? k act n = (a.pending k).operationIn? act n := by
  rw [operationIn?, pending]
  cases a.find? k with
  | none => cases act <;> rfl
  | some c => rfl

lemma operationIn?_put (a : StagingArea) (k k' : SectionKey) (c : Commit) (act : Action)
    (n : String) : (a.put k c).operationIn? k' act n =
      if k' = k then c.operationIn? act n else a.operationIn? k' act n := by
  rw [operationIn?_eq_pending, operationIn?_eq_pending, pending_put]
  split_ifs <;> rfl

/-- Putting back what is pending changes nothing. -/
lemma put_pending (hfilled : ∀ e ∈ a.entries, e.commit.isEmpty = false) :
    a.put k (a.pending k) = a := by
  by_cases hk : k ∈ a.keys
  · obtain ⟨c, hc⟩ := Option.isSome_iff_exists.1 (mem_keys_iff.1 hk)
    rw [pending, hc, Option.getD_some, put_of_mem (hfilled _ (mem_of_find? hc)) hk,
      replaceFirst_self hc]
  · rw [put_of_isEmpty ((isEmpty_pending_iff hfilled).2 hk), eraseKey_of_new (not_mem_keys_iff.1 hk)]

/-! ### Taking names out of a commit that was put -/

/-- A name is taken out of the commit that was put. -/
lemma unstage_put (hs : s.key? = some k) (hd : d.isEmpty = false)
    (hremove : d.remove? n = some (act, d')) :
    (a.put k d).unstage s n = .ok (a.put k d') := by
  have hfind : (a.put k d).find? k = some d := by
    rw [find?_put, if_pos rfl, hd]
    rfl
  have hput : (a.put k d).put k d' = a.put k d' :=
    put_put (fun hempty => by rw [hd] at hempty; cases hempty) d'
  rw [unstage_eq hs, hfind, Option.bind_some, hremove]
  exact congrArg Except.ok hput

/-- Names of the patch are taken out one after another, and those that follow are left. -/
lemma unstageAll_put (hs : s.key? = some k) (hsole : (c.overlay p).Sole)
    (hfresh : ∀ n ∈ (Commit.ofPatch p).names, c.actionOf n = none) (hnodup : (before ++ ns).Nodup)
    (hns : ∀ n ∈ before ++ ns, n ∈ (Commit.ofPatch p).names)
    (hd : Commit.OverlaidBy c p (before ++ ns) d) :
    ∃ d', (a.put k d).unstageAll s before = .ok (a.put k d') ∧ Commit.OverlaidBy c p ns d' := by
  induction before generalizing d with
  | nil => exact ⟨d, rfl, hd⟩
  | cons n before ih =>
    obtain ⟨hnew, hnodup⟩ := List.nodup_cons.1 hnodup
    obtain ⟨hn, hns⟩ := List.forall_mem_cons.1 hns
    obtain ⟨act, d₁, hremove, hd₁, -⟩ := hd.remove? hsole (hfresh n hn) hn hnew
    obtain ⟨d', hrest, hd'⟩ := ih hnodup hns hd₁
    exact ⟨d', bind_eq_ok_iff.2 ⟨_, unstage_put hs (hd.isEmpty_eq_false hn) hremove, hrest⟩, hd'⟩

/-- A patch of new names that was staged in a section is undone by taking its names out one by one,
in any order.  Each of them is taken out of all buckets, and no bucket of any section loses another
name.  The last of them leaves the area as it was before the patch was staged. -/
theorem unstage_undoes (hfilled : ∀ e ∈ a.entries, e.commit.isEmpty = false)
    (hs : s.isComplete = true) (hfresh : ∀ n ∈ (Commit.ofPatch p).names, a.actionOf s n = none)
    (hb : a.stage s p = .ok b) (hns : ns.Perm (Commit.ofPatch p).names) :
    b.unstageAll s ns = .ok a ∧
      ∀ before n after, ns = before ++ n :: after →
        ∃ x y, b.unstageAll s before = .ok x ∧ x.unstage s n = .ok y ∧
          ∀ k act m, y.operationIn? k act m =
            if k = ⟨s.text⟩ ∧ m = n then none else x.operationIn? k act m := by
  have hkey : s.key? = some ⟨s.text⟩ := SectionAddress.key?_eq_some_iff.2 ⟨hs, rfl⟩
  obtain ⟨hsole, rfl⟩ := (stage_eq_ok_iff hkey).1 hb
  have hnew : ∀ n ∈ (Commit.ofPatch p).names, (a.pending ⟨s.text⟩).actionOf n = none := by
    intro n hn
    have hnone := hfresh n hn
    rw [actionOf_eq hkey, ← operation?_getD, ← Commit.actionOf_eq] at hnone
    exact hnone
  have hnodup : ns.Nodup := hns.nodup_iff.2
    (Commit.firstRepeated_eq_none.1 (Commit.conflict?_eq_none.2 hsole.of_overlay_patch)).1
  have hmem : ∀ n ∈ ns, n ∈ (Commit.ofPatch p).names := fun n => hns.mem_iff.1
  have hwhole := Commit.overlaidBy_names (c := a.pending ⟨s.text⟩) fun n => hns.mem_iff.2
  constructor
  · have hall : ns ++ [] = ns := List.append_nil ns
    obtain ⟨d, hrun, hd⟩ := unstageAll_put (a := a) hkey hsole hnew (by rwa [hall])
      (by rwa [hall]) (by rwa [hall])
    rw [hrun, hd.eq_of_nil, put_pending hfilled]
  · rintro before n after rfl
    obtain ⟨d, hrun, hd⟩ := unstageAll_put (a := a) hkey hsole hnew hnodup hmem hwhole
    have hn := hmem n (by simp)
    have hlast : n ∉ after := (List.nodup_cons.1 (List.nodup_append.1 hnodup).2.1).1
    obtain ⟨act, d', hremove, -, hgone⟩ := hd.remove? hsole (hnew n hn) hn hlast
    refine ⟨_, _, hrun, unstage_put hkey (hd.isEmpty_eq_false hn) hremove, fun k act m => ?_⟩
    rw [operationIn?_put, operationIn?_put]
    by_cases hk : k = ⟨s.text⟩
    · simp [hk, hgone]
    · simp [hk]

/-- A patch of two buckets for the first of two sections is undone in another order than that of its
names. -/
theorem unstage_undoes_three :
    let patch : Patch := { Patch.copy ["gcc", "vim"] extraSection with
      toMove := some (Patch.transfer ["zsh"] extraSection) }
    ∃ b, threeStaged.stage coreSection patch = .ok b ∧ b ≠ threeStaged ∧
      b.unstageAll coreSection ["vim", "zsh", "gcc"] = .ok threeStaged := by
  intro patch
  obtain ⟨b, hb⟩ : ∃ b, threeStaged.stage coreSection patch = .ok b := ⟨_, rfl⟩
  have hperm : ["vim", "zsh", "gcc"].Perm (Commit.ofPatch patch).names := by decide +kernel
  have hundone := unstage_undoes (by decide +kernel) (by decide +kernel) (by decide +kernel) hb hperm
  refine ⟨b, hb, ?_, hundone.1⟩
  cases hb
  decide +kernel

end StagingArea

end PackageStaging
