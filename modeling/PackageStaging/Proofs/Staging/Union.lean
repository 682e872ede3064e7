/-
# Merging is a checked union

`Commit.merge` answers with the union of a commit and a patch, in which the patch wins, if this
union has every name in one bucket only.  Otherwise it reports one name.  The names of a commit are
walked bucket by bucket, each bucket in ascending order, so the walk itself ascends
(`walk_ascending`) once every name carries its bucket.  The name that is reported is the first that
the walk meets again, and it is also the least of the repeated names of the first bucket that has
one (`merge_checked_union`).
-/
import PackageStaging.Proofs.Staging.Restaging

namespace PackageStaging

/-- The place of a bucket when a commit is walked. -/
def Action.place : Action → Nat
  | .add => 0
  | .delete => 1
  | .copy => 2
  | .move => 3

namespace Commit

/-- What a bucket of a union says of a name: what the upper bucket says, if it is given and holds
the name, else what the lower one says. -/
def unionAt {α : Type} (lower : NameMap α) (upper : Option (NameMap α)) (n : String) : Option α :=
  (upper.bind fun bucket => bucket.get? n).or (lower.get? n)

/-- The commit `u` is the union of `c` and `p`, in which `p` wins. -/
structure IsUnion (c : Commit) (p : Patch) (u : Commit) : Prop where
  add : ∀ n, u.toAdd.get? n = unionAt c.toAdd p.toAdd n
  delete : ∀ n, n ∈ u.toDelete.names ↔
    n ∈ c.toDelete.names ∨ ∃ names, p.toDelete = some names ∧ n ∈ names.names
  copy : ∀ n, u.toCopy.get? n = unionAt c.toCopy p.toCopy n
  move : ∀ n, u.toMove.get? n = unionAt c.toMove p.toMove n

/-- The name is in this bucket and in one before it. -/
def Repeats (c : Commit) (a : Action) (n : String) : Prop :=
  c.holds a n = true ∧ ∃ b, b.place < a.place ∧ c.holds b n = true

variable {c u v : Commit} {p : Patch} {n : String} {a : Action}

/-! ### The union -/

lemma unionAt_eq {α : Type} (lower : NameMap α) (upper : Option (NameMap α)) (n : String) :
    (lower.overlay (upper.getD .empty)).get? n = unionAt lower upper n := by
  rw [NameMap.get?_overlay, unionAt]
  cases upper with
  | none => rfl
  | some bucket => rfl

lemma isUnion_overlay (c : Commit) (p : Patch) : IsUnion c p (c.overlay p) where
  add n := unionAt_eq _ _ n
  delete n := by
    have hget := unionAt_eq c.toDelete p.toDelete n
    rw [NameMap.mem_names_unit_iff, NameMap.mem_names_unit_iff]
    refine (iff_of_eq (congrArg (· = some ()) hget)).trans ?_
    rw [unionAt]
    cases p.toDelete with
    | none => simp
    | some names => cases hn : names.get? n <;> simp [NameMap.mem_names_unit_iff, hn]
  copy n := unionAt_eq _ _ n
  move n := unionAt_eq _ _ n

/-- There is only one union. -/
lemma IsUnion.unique (hu : IsUnion c p u) (hv : IsUnion c p v) : u = v := by
  obtain ⟨uAdd, uDelete, uCopy, uMove⟩ := u
  obtain ⟨vAdd, vDelete, vCopy, vMove⟩ := v
  have hadd : uAdd = vAdd := NameMap.ext fun n => (hu.add n).trans (hv.add n).symm
  have hdelete : uDelete = vDelete := by
    refine NameMap.ext fun n => Option.ext fun x => ?_
    have hsame := (hu.delete n).trans (hv.delete n).symm
    rw [NameMap.mem_names_unit_iff, NameMap.mem_names_unit_iff] at hsame
    exact hsame
  have hcopy : uCopy = vCopy := NameMap.ext fun n => (hu.copy n).trans (hv.copy n).symm
  have hmove : uMove = vMove := NameMap.ext fun n => (hu.move n).trans (hv.move n).symm
  rw [hadd, hdelete, hcopy, hmove]

/-! ### The walk over the names -/

/-- The names of a bucket, in ascending order. -/
def bucketNames (c : Commit) : Action → List String
  | .add => c.toAdd.names
  | .delete => c.toDelete.names
  | .copy => c.toCopy.names
  | .move => c.toMove.names

/-- The names in the order in which they are walked, each with its bucket. -/
def walk (c : Commit) : List (Action × String) :=
  [Action.add, .delete, .copy, .move].flatMap fun a => (c.bucketNames a).map fun n => (a, n)

/-- An earlier bucket, or a lesser name of the same bucket. -/
def WalkedBefore (x y : Action × String) : Prop :=
  x.1.place < y.1.place ∨ x.1 = y.1 ∧ x.2 < y.2

lemma map_snd_walk (c : Commit) : c.walk.map (·.2) = c.names := by
  simp [walk, names, bucketNames, Function.comp_def]

lemma mem_bucketNames : n ∈ c.bucketNames a ↔ c.holds a n = true := by
  cases a with
  | add => exact mem_names_bucket
  | delete => exact mem_names_bucket
  | copy => exact mem_names_bucket
  | move => exact mem_names_bucket

lemma mem_walk : (a, n) ∈ c.walk ↔ c.holds a n = true := by
  rw [← mem_bucketNames, walk, List.mem_flatMap]
  constructor
  · rintro ⟨b, -, hb⟩
    obtain ⟨m, hm, hpair⟩ := List.mem_map.1 hb
    obtain ⟨rfl, rfl⟩ := Prod.mk.inj hpair
    exact hm
  · intro h
    exact ⟨a, by cases a <;> simp, List.mem_map.2 ⟨n, h, rfl⟩⟩

lemma bucketNames_ascending (c : Commit) (a : Action) : (c.bucketNames a).Pairwise (· < ·) := by
  cases a with
  | add => exact List.pairwise_map.2 c.toAdd.ascending
  | delete => exact List.pairwise_map.2 c.toDelete.ascending
  | copy => exact List.pairwise_map.2 c.toCopy.ascending
  | move => exact List.pairwise_map.2 c.toMove.ascending

lemma walk_ascending (c : Commit) : c.walk.Pairwise WalkedBefore := by
  rw [walk, List.pairwise_flatMap]
  constructor
  · intro a _
    exact List.pairwise_map.2 ((c.bucketNames_ascending a).imp fun hlt => .inr ⟨rfl, hlt⟩)
  · have hplaces : [Action.add, .delete, .copy, .move].Pairwise fun a b => a.place < b.place := by
      simp [Action.place]
    refine hplaces.imp fun hlt x hx y hy => .inl ?_
    obtain ⟨m, -, rfl⟩ := List.mem_map.1 hx
    obtain ⟨m', -, rfl⟩ := List.mem_map.1 hy
    exact hlt

/-- The first name that the walk meets again is repeated, and no repeated name comes before it. -/
lemma repeats_of_first {before after : List String} (hsplit : c.names = before ++ n :: after)
    (hnodup : before.Nodup) (hmem : n ∈ before) :
    ∃ a, c.Repeats a n ∧
      ∀ b m, c.Repeats b m → a.place < b.place ∨ b = a ∧ n ≤ m := by
  rw [← map_snd_walk] at hsplit
  obtain ⟨walked, rest, hwalk, rfl, hrest⟩ := List.map_eq_append_iff.1 hsplit
  obtain ⟨⟨a, n'⟩, later, rfl, rfl, rfl⟩ := List.map_eq_cons_iff.1 hrest
  have hascending := c.walk_ascending
  rw [hwalk, List.pairwise_append, List.pairwise_cons] at hascending
  obtain ⟨-, ⟨hlater, -⟩, hwalked⟩ := hascending
  refine ⟨a, ⟨mem_walk.1 (by rw [hwalk]; simp), ?_⟩, fun b m ⟨hb, b', hlt, hb'⟩ => ?_⟩
  · obtain ⟨⟨b, m⟩, hb, rfl⟩ := List.mem_map.1 hmem
    have hheld : c.holds b m = true := mem_walk.1 (by rw [hwalk]; exact List.mem_append_left _ hb)
    refine ⟨b, ?_, hheld⟩
    rcases hwalked _ hb (a, m) (.head _) with hlt | ⟨-, hlt⟩
    · exact hlt
    · exact absurd hlt (String.lt_irrefl _)
  · have hin := mem_walk.2 hb
    have hin' := mem_walk.2 hb'
    rw [hwalk, List.mem_append, List.mem_cons] at hin hin'
    rcases hin with hin | hin | hin
    · -- both buckets of the name would have been walked, and the name with them twice
      have hfirst : (b', m) ∈ walked := by
        refine hin'.resolve_right fun hnot => ?_
        rcases hwalked _ hin (b', m) (List.mem_cons.2 hnot) with hgt | ⟨-, hgt⟩
        · exact absurd hgt (Nat.lt_asymm hlt)
        · exact absurd hgt (String.lt_irrefl _)
      have hsame : (b', m) = (b, m) := List.inj_on_of_nodup_map hnodup hfirst hin rfl
      rw [(Prod.mk.inj hsame).1] at hlt
      exact absurd hlt (Nat.lt_irrefl _)
    · obtain ⟨rfl, rfl⟩ := Prod.mk.inj hin
      exact .inr ⟨rfl, String.le_refl _⟩
    · rcases hlater _ hin with hlt' | ⟨hsame, hlt'⟩
      · exact .inl hlt'
      · exact .inr ⟨hsame.symm, String.not_lt.1 (String.lt_asymm hlt')⟩

/-! ### Merging -/

/-- Merging gives the union of the commit and the patch, the patch winning, if no name is in two
of its buckets.  Otherwise it reports the name that is met again first when the names of the union
are walked bucket by bucket: of the names that are in an earlier bucket, too, the least one of the
first bucket that has one. -/
theorem merge_checked_union (c : Commit) (p : Patch) :
    ∃ u, IsUnion c p u ∧ (∀ v, IsUnion c p v → v = u) ∧
      (u.Sole → c.merge p = .ok u) ∧
      (¬u.Sole → ∃ n, c.merge p = .error (.conflictingActions n) ∧
        (∃ before after, u.names = before ++ n :: after ∧ before.Nodup ∧ n ∈ before) ∧
        ∃ a, u.Repeats a n ∧
          ∀ b m, u.Repeats b m → a.place < b.place ∨ b = a ∧ n ≤ m) := by
  have hunion := isUnion_overlay c p
  refine ⟨c.overlay p, hunion, fun v hv => hv.unique hunion, ?_, ?_⟩
  · intro hsole
    exact StagingArea.checked_eq_ok_iff.2 ⟨hsole, rfl⟩
  · intro hnot
    obtain ⟨n, hn⟩ := Option.ne_none_iff_exists'.1 fun h => hnot (conflict?_eq_none.1 h)
    obtain ⟨before, after, hsplit, hnodup, -, hmem⟩ := firstRepeated_eq_some.1 hn
    have hseen : n ∈ before := hmem.resolve_right List.not_mem_nil
    refine ⟨n, ?_, ⟨before, after, hsplit, hnodup, hseen⟩, repeats_of_first hsplit hnodup hseen⟩
    rw [merge, checked, hn]

end Commit

end PackageStaging
