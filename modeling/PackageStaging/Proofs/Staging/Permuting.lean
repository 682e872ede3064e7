/-
# Staging in any order

Patches are staged one after another until one is refused.  What is staged for a section in the end
is its commit with all its patches put over it, and no patch is refused exactly if these unions have
each name in one bucket only (`stageAll_isOk_iff`): an intermediate union is part of the last one,
so it cannot have a conflict that the last one has not.  Patches that agree commute when they are
put over a commit (`Commit.overlay_comm`).  So the order of the patches does not matter for what is
staged (`stageAll_perm`); it matters for the order of the sections only, which are appended when
they get their first operation (`keys_stageAll`).
-/
import PackageStaging.Payload
import PackageStaging.Proofs.Staging.Loading
import PackageStaging.Proofs.Staging.Ordered

namespace PackageStaging

/-! ### Patches over one commit -/

namespace NameMap

variable {α : Type} {m m' : NameMap α}

/-- Where both maps have a value for a name, it is the same. -/
def Agrees (m m' : NameMap α) : Prop := ∀ n u v, m.get? n = some u → m'.get? n = some v → u = v

lemma agrees_iff : m.Agrees m' ↔ ∀ e ∈ m.entries, ∀ e' ∈ m'.entries, e.1 = e'.1 → e.2 = e'.2 := by
  constructor
  · rintro h ⟨n, u⟩ he ⟨n', v⟩ he' rfl
    exact h n u v (m.get?_eq_some_iff.2 he) (m'.get?_eq_some_iff.2 he')
  · intro h n u v hu hv
    exact h (n, u) (m.get?_eq_some_iff.1 hu) (n, v) (m'.get?_eq_some_iff.1 hv) rfl

instance [DecidableEq α] : Decidable (m.Agrees m') := decidable_of_iff' _ agrees_iff

/-- Maps that agree may be overlaid in either order. -/
lemma overlay_comm (h : m.Agrees m') (lower : NameMap α) :
    (lower.overlay m).overlay m' = (lower.overlay m').overlay m := by
  refine ext fun n => ?_
  simp only [get?_overlay]
  cases hm : m.get? n with
  | none => rfl
  | some u =>
    cases hm' : m'.get? n with
    | none => rfl
    | some v => rw [h n u v hm hm']

end NameMap

/-- Where both patches have a name in the same bucket, they give it the same value. -/
structure Patch.Agrees (p q : Patch) : Prop where
  add : (Commit.ofPatch p).toAdd.Agrees (Commit.ofPatch q).toAdd
  copy : (Commit.ofPatch p).toCopy.Agrees (Commit.ofPatch q).toCopy
  move : (Commit.ofPatch p).toMove.Agrees (Commit.ofPatch q).toMove

instance (p q : Patch) : Decidable (p.Agrees q) :=
  decidable_of_iff ((Commit.ofPatch p).toAdd.Agrees (Commit.ofPatch q).toAdd ∧
      (Commit.ofPatch p).toCopy.Agrees (Commit.ofPatch q).toCopy ∧
      (Commit.ofPatch p).toMove.Agrees (Commit.ofPatch q).toMove)
    ⟨fun ⟨hadd, hcopy, hmove⟩ => ⟨hadd, hcopy, hmove⟩, fun h => ⟨h.add, h.copy, h.move⟩⟩

namespace Commit

variable {c : Commit} {p q : Patch} {ps qs : List Patch}

/-- The commit with patches put over it, one after another. -/
def overlayAll (c : Commit) (ps : List Patch) : Commit := ps.foldl overlay c

lemma overlay_comm (h : p.Agrees q) (c : Commit) :
    (c.overlay p).overlay q = (c.overlay q).overlay p := by
  have hadd := NameMap.overlay_comm h.add c.toAdd
  have hsets : (ofPatch p).toDelete.Agrees (ofPatch q).toDelete := fun _ _ _ _ _ => rfl
  have hdelete := NameMap.overlay_comm hsets c.toDelete
  have hcopy := NameMap.overlay_comm h.copy c.toCopy
  have hmove := NameMap.overlay_comm h.move c.toMove
  simp only [overlay, hadd, hdelete, hcopy, hmove]

lemma overlayAll_perm (hagree : ∀ p ∈ ps, ∀ q ∈ ps, p.Agrees q) (hperm : ps.Perm qs)
    (c : Commit) : c.overlayAll ps = c.overlayAll qs :=
  hperm.foldl_eq' (fun p hp q hq c => overlay_comm (hagree p hp q hq) c) c

/-- A conflict stays a conflict, whatever is put over the commit. -/
lemma Sole.of_overlay (h : (c.overlay p).Sole) : c.Sole := by
  intro n a b ha hb
  exact h n a b (by rw [holds_overlay, ha, Bool.or_true]) (by rw [holds_overlay, hb, Bool.or_true])

lemma Sole.of_overlayAll (h : (c.overlayAll ps).Sole) : c.Sole := by
  induction ps generalizing c with
  | nil => exact h
  | cons p ps ih => exact (ih h).of_overlay

/-- A union is without operations exactly if both of its parts are. -/
lemma isEmpty_overlay (c : Commit) (p : Patch) :
    (c.overlay p).isEmpty = ((ofPatch p).isEmpty && c.isEmpty) := by
  have hholds : ∀ d : Commit, d.isEmpty = true ↔ ∀ n a, d.holds a n = false := fun d => by
    simp only [isEmpty_iff, operation?_eq_none]
  rw [Bool.eq_iff_iff, Bool.and_eq_true, hholds, hholds, hholds]
  simp only [holds_overlay, Bool.or_eq_false_iff, forall_and]

end Commit

namespace StagingArea

variable {a b : StagingArea} {k : SectionKey} {s : SectionAddress} {p : Patch}
  {l l' : List (SectionAddress × Patch)}

/-- Stages patches one after another; the first that is refused ends it. -/
def stageAll (a : StagingArea) (l : List (SectionAddress × Patch)) : Except Error StagingArea :=
  l.foldlM (fun a e => a.stage e.1 e.2) a

/-- The patches for the section with this key, in order. -/
def patchesFor (k : SectionKey) (l : List (SectionAddress × Patch)) : List Patch :=
  (l.filter fun e => e.1.key? = some k).map (·.2)

/-- The sections for which nothing is staged, in the order of their first patches that have
operations. -/
def newcomers (a : StagingArea) (l : List (SectionAddress × Patch)) : List SectionAddress :=
  ((l.filter fun e => (a.get? e.1).isNone && !(Commit.ofPatch e.2).isEmpty).map (·.1)).eraseDups

/-- What is staged under a key, which may be nothing. -/
def pending (a : StagingArea) (k : SectionKey) : Commit := (a.find? k).getD .empty

/-! ### One patch -/

lemma pending_put (a : StagingArea) (k k' : SectionKey) (c : Commit) :
    (a.put k c).pending k' = if k' = k then c else a.pending k' := by
  rw [pending, find?_put]
  split_ifs with hk hc
  · exact (Commit.eq_empty_of_isEmpty hc).symm
  · rfl
  · rfl

lemma stage_eq_ok_iff (hs : s.key? = some k) :
    a.stage s p = .ok b ↔
      ((a.pending k).overlay p).Sole ∧ b = a.put k ((a.pending k).overlay p) := by
  rw [stage_eq hs, ← pending]
  cases hc : ((a.pending k).overlay p).checked with
  | error err =>
    constructor
    · intro h
      cases h
    · rintro ⟨hsole, -⟩
      rw [checked_eq_ok_iff.2 ⟨hsole, rfl⟩] at hc
      cases hc
  | ok c =>
    obtain ⟨hsole, rfl⟩ := checked_eq_ok_iff.1 hc
    constructor
    · intro h
      exact ⟨hsole, (Except.ok.inj h).symm⟩
    · rintro ⟨-, rfl⟩
      rfl

lemma WellFormed.stage (h : a.WellFormed) (hs : s.KeyedBy k) (hb : a.stage s p = .ok b) :
    b.WellFormed := by
  obtain ⟨hsole, rfl⟩ := (stage_eq_ok_iff hs.1).1 hb
  exact h.put hs.address hsole

/-- Nothing is pending under a key exactly if it is not among the keys. -/
lemma isEmpty_pending_iff (hfilled : ∀ e ∈ a.entries, e.commit.isEmpty = false) :
    (a.pending k).isEmpty = true ↔ k ∉ a.keys := by
  rw [mem_keys_iff, pending]
  cases hc : a.find? k with
  | none => simp [Commit.empty, Commit.isEmpty, NameMap.isEmpty, NameMap.empty]
  | some c => simp [hfilled _ (mem_of_find? hc)]

lemma find?_eq_pending (h : a.WellFormed) (k : SectionKey) :
    a.find? k = if (a.pending k).isEmpty then none else some (a.pending k) := by
  rw [pending]
  cases hc : a.find? k with
  | none => rfl
  | some c => simp [h.filled _ (mem_of_find? hc)]

/-- A patch appends the key of its section if it brings the first operations. -/
lemma keys_stage (h : a.WellFormed) (hs : s.key? = some k) (hb : a.stage s p = .ok b) :
    b.keys = if k ∈ a.keys ∨ (Commit.ofPatch p).isEmpty = true then a.keys else a.keys ++ [k] := by
  obtain ⟨-, rfl⟩ := (stage_eq_ok_iff hs).1 hb
  rw [keys_put, Commit.isEmpty_overlay, OrderedMap.keysWith]
  have hpending := isEmpty_pending_iff (k := k) h.filled
  by_cases hk : k ∈ a.keys
  · have hfilled : (a.pending k).isEmpty = false :=
      eq_false_of_ne_true fun hempty => hpending.1 hempty hk
    simp [hk, hfilled]
  · have hnone : a.keys.filter (· ≠ k) = a.keys := by
      rw [List.filter_eq_self]
      intro k' hk'
      simpa using fun heq : k' = k => hk (heq ▸ hk')
    simp only [hk, hpending.2 hk, Bool.and_true, false_or, if_false, hnone]
    cases (Commit.ofPatch p).isEmpty with
    | false => simp
    | true => simp

/-! ### Patches one after another -/

lemma stageAll_cons_eq_ok_iff {e : SectionAddress × Patch} :
    a.stageAll (e :: l) = .ok b ↔ ∃ a₁, a.stage e.1 e.2 = .ok a₁ ∧ a₁.stageAll l = .ok b := by
  rw [stageAll, List.foldlM_cons, bind_eq_ok_iff]
  rfl

/-- Staging the first patch leaves the same unions to be made. -/
lemma overlayAll_pending_put (a : StagingArea) {e : SectionAddress × Patch}
    (hs : e.1.key? = some k) (k' : SectionKey) :
    ((a.put k ((a.pending k).overlay e.2)).pending k').overlayAll (patchesFor k' l) =
      (a.pending k').overlayAll (patchesFor k' (e :: l)) := by
  rw [pending_put]
  by_cases hk : k' = k
  · subst hk
    simp [patchesFor, hs, Commit.overlayAll]
  · have hne : ¬k = k' := fun h => hk h.symm
    simp [patchesFor, hs, hk, hne]

/-- No patch is refused exactly if in the end no section has a name in two buckets. -/
theorem stageAll_isOk_iff (hsole : ∀ k, (a.pending k).Sole)
    (hl : ∀ e ∈ l, e.1.isComplete = true) :
    (∃ b, a.stageAll l = .ok b) ↔
      ∀ k, ((a.pending k).overlayAll (patchesFor k l)).Sole := by
  induction l generalizing a with
  | nil => exact ⟨fun _ => hsole, fun _ => ⟨a, rfl⟩⟩
  | cons e l ih =>
    have hs := SectionAddress.key?_eq_some_iff.2 ⟨hl e (.head _), rfl⟩
    have hrest : ∀ d ∈ l, d.1.isComplete = true := fun d hd => hl d (.tail _ hd)
    constructor
    · rintro ⟨b, hb⟩ k
      obtain ⟨a₁, ha₁, hb⟩ := stageAll_cons_eq_ok_iff.1 hb
      obtain ⟨hfirst, rfl⟩ := (stage_eq_ok_iff hs).1 ha₁
      rw [← overlayAll_pending_put a hs]
      refine (ih (fun k' => ?_) hrest).1 ⟨b, hb⟩ k
      rw [pending_put]
      split_ifs
      · exact hfirst
      · exact hsole k'
    · intro hall
      -- the union with the first patch is part of the union with all of them
      have hlast : ∀ k, ((a.put ⟨e.1.text⟩ ((a.pending ⟨e.1.text⟩).overlay e.2)).pending
          k).overlayAll (patchesFor k l) |>.Sole := by
        intro k
        rw [overlayAll_pending_put a hs]
        exact hall k
      have hmiddle := fun k => (hlast k).of_overlayAll
      have hfirst := hmiddle ⟨e.1.text⟩
      rw [pending_put, if_pos rfl] at hfirst
      obtain ⟨b, hb⟩ := (ih hmiddle hrest).2 hlast
      exact ⟨b, stageAll_cons_eq_ok_iff.2 ⟨_, (stage_eq_ok_iff hs).2 ⟨hfirst, rfl⟩, hb⟩⟩

/-- What is pending in the end are the unions. -/
lemma stageAll_spec (h : a.WellFormed) (hl : ∀ e ∈ l, e.1.isComplete = true ∧ e.1.SlashFree)
    (hb : a.stageAll l = .ok b) :
    b.WellFormed ∧ ∀ k, b.pending k = (a.pending k).overlayAll (patchesFor k l) := by
  induction l generalizing a with
  | nil =>
    cases hb
    exact ⟨h, fun _ => rfl⟩
  | cons e l ih =>
    obtain ⟨hcomplete, hfree⟩ := hl e (.head _)
    have hs := hfree.keyedBy (SectionAddress.key?_eq_some_iff.2 ⟨hcomplete, rfl⟩)
    obtain ⟨a₁, ha₁, hb⟩ := stageAll_cons_eq_ok_iff.1 hb
    obtain ⟨hwf, hpending⟩ := ih (h.stage hs ha₁) (fun d hd => hl d (.tail _ hd)) hb
    obtain ⟨-, rfl⟩ := (stage_eq_ok_iff hs.1).1 ha₁
    exact ⟨hwf, fun k => (hpending k).trans (overlayAll_pending_put a hs.1 k)⟩

/-- A section with a key is staged exactly if the key is there. -/
lemma isNone_get?_iff (hs : s.key? = some k) (a : StagingArea) :
    (a.get? s).isNone = true ↔ k ∉ a.keys := by
  rw [get?_of_key? hs, mem_keys_iff, Option.isNone_iff_eq_none, Option.not_isSome_iff_eq_none]

/-- Once a patch has brought the first operations of its section, the section is no newcomer. -/
lemma newcomers_cons (h : a.WellFormed) {e : SectionAddress × Patch}
    (hl : ∀ d ∈ e :: l, d.1.isComplete = true ∧ d.1.SlashFree)
    {a₁ : StagingArea} (ha₁ : a.stage e.1 e.2 = .ok a₁) :
    newcomers a (e :: l) = (if ⟨e.1.text⟩ ∈ a.keys ∨ (Commit.ofPatch e.2).isEmpty = true then []
      else [e.1]) ++ newcomers a₁ l := by
  have hkey : ∀ d ∈ e :: l, d.1.KeyedBy ⟨d.1.text⟩ := fun d hd =>
    (hl d hd).2.keyedBy (SectionAddress.key?_eq_some_iff.2 ⟨(hl d hd).1, rfl⟩)
  have hs := hkey e (.head _)
  have hkeys := keys_stage h hs.1 ha₁
  rw [newcomers, List.filter_cons]
  simp only [Bool.and_eq_true, isNone_get?_iff hs.1, Bool.not_eq_true']
  split_ifs at hkeys ⊢ with hnew hold hold
  · exact absurd hold (not_or.2 ⟨hnew.1, by simp [hnew.2]⟩)
  · rw [List.map_cons, List.eraseDups_cons, List.filter_map, List.filter_filter, newcomers,
      List.singleton_append]
    congr 3
    refine List.filter_congr fun d hd => ?_
    -- a later patch for this section brings no newcomer any more
    have hiff : (a₁.get? d.1).isNone = true ↔ (a.get? d.1).isNone = true ∧ d.1 ≠ e.1 := by
      have hd' := hkey d (.tail _ hd)
      rw [isNone_get?_iff hd'.1, isNone_get?_iff hd'.1, hkeys, List.mem_append, not_or,
        List.mem_singleton, Ne, hs.eq_iff hd']
    rw [Bool.eq_iff_iff]
    simp only [Function.comp_apply, Bool.and_eq_true, hiff]
    simp [and_comm, and_left_comm]
  · rw [List.nil_append, newcomers]
    congr 2
    refine List.filter_congr fun d hd => ?_
    have hd' := hkey d (.tail _ hd)
    have hiff : (a.get? d.1).isNone = true ↔ (a₁.get? d.1).isNone = true := by
      rw [isNone_get?_iff hd'.1, isNone_get?_iff hd'.1, hkeys]
    rw [Bool.eq_iff_iff.2 hiff]
  · obtain ⟨hk, hfilled⟩ := not_or.1 hold
    exact absurd ⟨hk, by simpa using hfilled⟩ hnew

/-- The keys of the newcomers are appended in their order. -/
theorem keys_stageAll (h : a.WellFormed) (hl : ∀ e ∈ l, e.1.isComplete = true ∧ e.1.SlashFree)
    (hb : a.stageAll l = .ok b) :
    b.keys = a.keys ++ (newcomers a l).map fun s => ⟨s.text⟩ := by
  induction l generalizing a with
  | nil =>
    cases hb
    simp [newcomers]
  | cons e l ih =>
    obtain ⟨hcomplete, hfree⟩ := hl e (.head _)
    have hs := hfree.keyedBy (SectionAddress.key?_eq_some_iff.2 ⟨hcomplete, rfl⟩)
    obtain ⟨a₁, ha₁, hb⟩ := stageAll_cons_eq_ok_iff.1 hb
    rw [newcomers_cons h hl ha₁, ih (h.stage hs ha₁) (fun d hd => hl d (.tail _ hd)) hb,
      keys_stage h hs.1 ha₁, List.map_append]
    split_ifs
    · rfl
    · rw [List.append_assoc]
      rfl

/-! ### Patches in another order -/

/-- The patches for a section are permuted with all of them. -/
lemma patchesFor_perm (hperm : l.Perm l') (k : SectionKey) :
    (patchesFor k l).Perm (patchesFor k l') := (hperm.filter _).map _

/-- The same unions are to be made in any order, if patches for the same section agree. -/
lemma overlayAll_patchesFor (hl : ∀ e ∈ l, e.1.isComplete = true ∧ e.1.SlashFree)
    (hagree : ∀ x ∈ l, ∀ y ∈ l, x.1 = y.1 → x.2.Agrees y.2) (hperm : l.Perm l')
    (k : SectionKey) (c : Commit) :
    c.overlayAll (patchesFor k l) = c.overlayAll (patchesFor k l') := by
  refine Commit.overlayAll_perm (fun p hp q hq => ?_) (patchesFor_perm hperm k) c
  obtain ⟨x, hx, rfl⟩ := List.mem_map.1 hp
  obtain ⟨y, hy, rfl⟩ := List.mem_map.1 hq
  rw [List.mem_filter, decide_eq_true_iff] at hx hy
  exact hagree x hx.1 y hy.1 ((hl y hy.1).2.eq_of_key? hy.2 hx.2)

/-- If patches that agree can be staged in one order, they can be staged in any other, with the same
commit for every section.  If the sections that are new get their first operations in the same
order, too, the areas are equal, and so is what is written of them and what is sent for them. -/
theorem stageAll_perm (h : a.WellFormed) (hl : ∀ e ∈ l, e.1.isComplete = true ∧ e.1.SlashFree)
    (hagree : ∀ x ∈ l, ∀ y ∈ l, x.1 = y.1 → x.2.Agrees y.2) (hb : a.stageAll l = .ok b)
    (hperm : l.Perm l') :
    ∃ b', a.stageAll l' = .ok b' ∧ (∀ s, b'.get? s = b.get? s) ∧
      (newcomers a l' = newcomers a l → b' = b ∧
        Wire.stagingAreaValue b' = Wire.stagingAreaValue b ∧
        Payload.encode b' = Payload.encode b) := by
  have hl' : ∀ e ∈ l', e.1.isComplete = true ∧ e.1.SlashFree := fun e he => hl e (hperm.mem_iff.2 he)
  have hsole := sole_getD h
  have hunions := overlayAll_patchesFor hl hagree hperm
  have hfinal := (stageAll_isOk_iff hsole fun e he => (hl e he).1).1 ⟨b, hb⟩
  obtain ⟨b', hb'⟩ := (stageAll_isOk_iff hsole fun e he => (hl' e he).1).2 fun k => by
    rw [← hunions]
    exact hfinal k
  obtain ⟨hwf, hpending⟩ := stageAll_spec h hl hb
  obtain ⟨hwf', hpending'⟩ := stageAll_spec h hl' hb'
  have hfind : ∀ k, b'.find? k = b.find? k := by
    intro k
    rw [find?_eq_pending hwf', find?_eq_pending hwf, hpending, hpending', hunions]
  refine ⟨b', hb', fun s => ?_, fun hnew => ?_⟩
  · rw [get?, get?, funext hfind]
  · have hkeys : b'.keys = b.keys := by
      rw [keys_stageAll h hl' hb', keys_stageAll h hl hb, hnew]
    obtain rfl := eq_of_keys hwf'.distinct hkeys hfind
    exact ⟨rfl, rfl, rfl⟩

/-- The section `stable/core/x86_64`. -/
def coreSection : SectionAddress := .ofString "stable/core/x86_64"

/-- The section `stable/extra/x86_64`. -/
def extraSection : SectionAddress := .ofString "stable/extra/x86_64"

/-- An area in which one package of `stable/core/x86_64` is to be deleted. -/
def coreStaged : StagingArea := ⟨[⟨⟨"stable/core/x86_64"⟩, .ofPatch (.delete ["bash"])⟩]⟩

/-- Two patches for a section that is new and one for the other section. -/
def threePatches : List (SectionAddress × Patch) :=
  [(extraSection, .copy ["gcc", "vim"] coreSection), (coreSection, .move ["nano"] extraSection),
    (extraSection, .copy ["vim", "zsh"] coreSection)]

/-- What the three patches lead to. -/
def threeStaged : StagingArea :=
  ⟨[⟨⟨"stable/core/x86_64"⟩, (Commit.ofPatch (.delete ["bash"])).overlay
      (.move ["nano"] extraSection)⟩,
    ⟨⟨"stable/extra/x86_64"⟩, .ofPatch (.copy ["gcc", "vim", "zsh"] coreSection)⟩]⟩

theorem stageAll_perm_three : coreStaged.stageAll threePatches.reverse = .ok threeStaged := by
  have hwf : coreStaged.WellFormed := by
    have hchecked : ofEntries coreStaged.entries = .ok coreStaged := by decide +kernel
    exact (ofEntries_eq_ok_iff.1 hchecked).1
  have hl : ∀ e ∈ threePatches, e.1.isComplete = true ∧ e.1.SlashFree := by
    simp only [threePatches, List.forall_mem_cons, coreSection, extraSection]
    refine ⟨⟨?_, ?_⟩, ⟨?_, ?_⟩, ⟨?_, ?_⟩, fun e he => absurd he List.not_mem_nil⟩
    all_goals first | exact SectionAddress.slashFree_ofString _ | decide +kernel
  obtain ⟨b', hb', -, hequal⟩ := stageAll_perm (b := threeStaged) hwf hl (by decide +kernel)
    (by decide +kernel) threePatches.reverse_perm.symm
  rw [hb', (hequal (by decide +kernel)).1]

end StagingArea

end PackageStaging
