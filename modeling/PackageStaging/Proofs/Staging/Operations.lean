/-
# The operations of a commit

A commit whose names are all different is a finite map: each name has at most one operation
(`Commit.operation?`).  Taking a name out and putting a batch over the commit are operations on
this map, whatever buckets they go through.
-/
import Mathlib.Data.List.Nodup
import Mathlib.Tactic.Lemma
import PackageStaging.Batch

namespace PackageStaging

/-- What is to be done with one package of a section. -/
inductive Operation where
  | add (u : Upload)
  | delete
  | copy (target : SectionAddress)
  | move (target : SectionAddress)
deriving DecidableEq

/-- The kind of an operation. -/
def Operation.action : Operation → Action
  | .add _ => .add
  | .delete => .delete
  | .copy _ => .copy
  | .move _ => .move

/-! ### Maps and sets of names -/

namespace NameMap

variable {α : Type} {m : NameMap α} {n : String}

lemma mem_names_iff : n ∈ m.names ↔ (m.get? n).isSome := by
  rw [Option.isSome_iff_exists]
  constructor
  · intro h
    obtain ⟨e, he, rfl⟩ := List.mem_map.1 h
    exact ⟨e.2, m.get?_eq_some_iff.2 he⟩
  · rintro ⟨v, hv⟩
    exact List.mem_map.2 ⟨(n, v), m.get?_eq_some_iff.1 hv, rfl⟩

lemma mem_names_unit_iff {m : NameSet} : n ∈ m.names ↔ m.get? n = some () := by
  rw [mem_names_iff, Option.isSome_iff_exists]
  exact ⟨fun ⟨_, h⟩ => h, fun h => ⟨(), h⟩⟩

lemma nodup_names (m : NameMap α) : m.names.Nodup := by
  rw [names, List.nodup_iff_pairwise_ne, List.pairwise_map]
  refine m.ascending.imp ?_
  intro a b hlt heq
  rw [heq] at hlt
  exact String.lt_irrefl _ hlt

lemma isEmpty_iff : m.isEmpty = true ↔ ∀ n, m.get? n = none := by
  constructor
  · intro h n
    rw [isEmpty, List.isEmpty_iff] at h
    rw [get?, h, List.lookup_nil]
  · intro h
    have hempty : m = empty := ext h
    rw [hempty]
    rfl

lemma eq_empty_of_isEmpty (h : m.isEmpty = true) : m = empty := ext (isEmpty_iff.1 h)

lemma lookup_map_const (names : List String) (v : α) (n : String) :
    (names.map fun k => (k, v)).lookup n = if n ∈ names then some v else none := by
  induction names with
  | nil => rfl
  | cons k ks ih =>
    rw [List.map_cons, lookup_cons_ite, ih]
    by_cases hk : k = n
    · rw [if_pos hk, if_pos (List.mem_cons.2 (.inl hk.symm))]
    · rw [if_neg hk]
      simp [Ne.symm hk]

/-- Names that all have the same value. -/
lemma get?_ofList_const (names : List String) (v : α) (n : String) :
    (ofList (names.map fun k => (k, v))).get? n = if n ∈ names then some v else none := by
  rw [ofList, get?_insertAll, ← List.map_reverse, lookup_map_const, get?_empty, Option.or_none]
  simp

/-! Overlaying is associative, and the empty map changes nothing on either side. -/

lemma overlay_assoc (m m' m'' : NameMap α) :
    (m.overlay m').overlay m'' = m.overlay (m'.overlay m'') :=
  ext fun n => by simp [Option.or_assoc]

@[simp] lemma overlay_empty (m : NameMap α) : m.overlay empty = m := ext fun n => by simp

@[simp] lemma empty_overlay (m : NameMap α) : empty.overlay m = m := ext fun n => by simp

@[simp] lemma overlay_self (m : NameMap α) : m.overlay m = m := ext fun n => by simp

end NameMap

/-! ### Commits -/

namespace Commit

variable {c : Commit} {n m : String}

/-- The operation of a name, bucket by bucket. -/
def operation? (c : Commit) (n : String) : Option Operation :=
  ((c.toAdd.get? n).map .add).or <| ((c.toDelete.get? n).map fun _ => .delete).or <|
    ((c.toCopy.get? n).map .copy).or ((c.toMove.get? n).map .move)

/-- Whether a bucket holds a name. -/
def holds (c : Commit) : Action → String → Bool
  | .add, n => c.toAdd.contains n
  | .delete, n => c.toDelete.contains n
  | .copy, n => c.toCopy.contains n
  | .move, n => c.toMove.contains n

/-- Every name is in one bucket at most. -/
def Sole (c : Commit) : Prop := ∀ n a b, c.holds a n = true → c.holds b n = true → a = b

lemma firstRepeated_eq_none {l : List String} :
    ∀ {seen : List String}, firstRepeated seen l = none ↔ l.Nodup ∧ ∀ n ∈ l, n ∉ seen := by
  induction l with
  | nil => simp [firstRepeated]
  | cons k ks ih =>
    intro seen
    rw [firstRepeated, List.nodup_cons]
    by_cases hk : k ∈ seen
    · simp [hk]
    · rw [if_neg hk, ih]
      constructor
      · rintro ⟨hnodup, hfresh⟩
        refine ⟨⟨fun hmem => hfresh k hmem (.head _), hnodup⟩, ?_⟩
        intro n hn
        rcases List.mem_cons.1 hn with rfl | hn
        · exact hk
        · exact fun hseen => hfresh n hn (.tail _ hseen)
      · rintro ⟨⟨hnew, hnodup⟩, hfresh⟩
        refine ⟨hnodup, fun n hn hmem => ?_⟩
        rcases List.mem_cons.1 hmem with rfl | hseen
        · exact hnew hn
        · exact hfresh n (.tail _ hn) hseen

/-- The first name that has been met before, in the list or in `seen`. -/
lemma firstRepeated_eq_some {l : List String} :
    ∀ {seen : List String}, firstRepeated seen l = some n ↔
      ∃ p q, l = p ++ n :: q ∧ p.Nodup ∧ (∀ m ∈ p, m ∉ seen) ∧ (n ∈ p ∨ n ∈ seen) := by
  induction l with
  | nil => simp [firstRepeated]
  | cons k ks ih =>
    intro seen
    rw [firstRepeated]
    by_cases hk : k ∈ seen
    · rw [if_pos hk]
      constructor
      · intro h
        cases h
        exact ⟨[], ks, rfl, .nil, fun _ hm => absurd hm List.not_mem_nil, .inr hk⟩
      · rintro ⟨p, q, hsplit, -, hfresh, -⟩
        cases p with
        | nil => rw [(List.cons.inj hsplit).1]
        | cons m p => exact absurd hk ((List.cons.inj hsplit).1 ▸ hfresh m (.head _))
    · rw [if_neg hk, ih]
      constructor
      · rintro ⟨p, q, rfl, hnodup, hfresh, hmem⟩
        refine ⟨k :: p, q, rfl, List.nodup_cons.2 ⟨fun h => hfresh k h (.head _), hnodup⟩, ?_, ?_⟩
        · intro m hm
          rcases List.mem_cons.1 hm with rfl | hm
          · exact hk
          · exact fun hseen => hfresh m hm (.tail _ hseen)
        · rcases hmem with hmem | hmem
          · exact .inl (.tail _ hmem)
          · rcases List.mem_cons.1 hmem with rfl | hmem
            · exact .inl (.head _)
            · exact .inr hmem
      · rintro ⟨p, q, hsplit, hnodup, hfresh, hmem⟩
        cases p with
        | nil =>
          obtain ⟨rfl, -⟩ := List.cons.inj hsplit
          exact absurd (hmem.resolve_left List.not_mem_nil) hk
        | cons m p =>
          obtain ⟨rfl, rfl⟩ := List.cons.inj hsplit
          rw [List.nodup_cons] at hnodup
          refine ⟨p, q, rfl, hnodup.2, fun m hm hseen => ?_, ?_⟩
          · rcases List.mem_cons.1 hseen with rfl | hseen
            · exact hnodup.1 hm
            · exact hfresh m (.tail _ hm) hseen
          · rcases hmem with hmem | hmem
            · rcases List.mem_cons.1 hmem with rfl | hmem
              · exact .inr (.head _)
              · exact .inl hmem
            · exact .inr (.tail _ hmem)

lemma mem_names_bucket {α : Type} {bucket : NameMap α} : n ∈ bucket.names ↔ bucket.contains n := by
  rw [NameMap.mem_names_iff, NameMap.contains]

/-- There is no conflict exactly when every name is in one bucket at most. -/
lemma conflict?_eq_none : c.conflict? = none ↔ c.Sole := by
  rw [conflict?, firstRepeated_eq_none]
  constructor
  · rintro ⟨hnodup, -⟩ n a b ha hb
    simp only [names, List.nodup_append, List.mem_append, mem_names_bucket] at hnodup
    obtain ⟨⟨⟨-, -, hd⟩, -, hc⟩, -, hm⟩ := hnodup
    cases a <;> cases b <;> simp only [holds] at ha hb <;> grind
  · intro hsole
    refine ⟨?_, fun n _ => List.not_mem_nil⟩
    simp only [names, List.nodup_append, List.mem_append, mem_names_bucket]
    refine ⟨⟨⟨NameMap.nodup_names _, NameMap.nodup_names _, ?_⟩, NameMap.nodup_names _, ?_⟩,
      NameMap.nodup_names _, ?_⟩
    · rintro n ha _ hb rfl
      exact nomatch hsole n .add .delete ha hb
    · rintro n (ha | ha) _ hb rfl
      · exact nomatch hsole n .add .copy ha hb
      · exact nomatch hsole n .delete .copy ha hb
    · rintro n ((ha | ha) | ha) _ hb rfl
      · exact nomatch hsole n .add .move ha hb
      · exact nomatch hsole n .delete .move ha hb
      · exact nomatch hsole n .copy .move ha hb

/-- A name that is repeated among the names of a commit is in two of its buckets. -/
lemma two_buckets_of_repeated {p q : List String} (h : c.names = p ++ n :: q) (hn : n ∈ p) :
    ∃ act act', act ≠ act' ∧ c.holds act n = true ∧ c.holds act' n = true := by
  have hone : ∀ {α : Type} (m : NameMap α), m.names.count n ≤ 1 := fun m =>
    List.nodup_iff_count_le_one.1 (NameMap.nodup_names m) n
  have hin : ∀ {α : Type} {m : NameMap α}, 0 < m.names.count n → m.contains n = true := fun hpos =>
    mem_names_bucket.1 (List.count_pos_iff.1 hpos)
  -- each bucket has the name once at most, so two of them have it
  have htwo : 2 ≤ c.names.count n := by
    have hp : 0 < p.count n := List.count_pos_iff.2 hn
    rw [h, List.count_append, List.count_cons_self]
    omega
  have hadd := hone c.toAdd
  have hdelete := hone c.toDelete
  have hcopy := hone c.toCopy
  have hmove := hone c.toMove
  simp only [names, List.count_append] at htwo
  by_cases h1 : 0 < c.toAdd.names.count n
  · by_cases h2 : 0 < c.toDelete.names.count n
    · exact ⟨.add, .delete, by decide, hin h1, hin h2⟩
    · by_cases h3 : 0 < c.toCopy.names.count n
      · exact ⟨.add, .copy, by decide, hin h1, hin h3⟩
      · exact ⟨.add, .move, by decide, hin h1, hin (by omega)⟩
  · by_cases h2 : 0 < c.toDelete.names.count n
    · by_cases h3 : 0 < c.toCopy.names.count n
      · exact ⟨.delete, .copy, by decide, hin h2, hin h3⟩
      · exact ⟨.delete, .move, by decide, hin h2, hin (by omega)⟩
    · exact ⟨.copy, .move, by decide, hin (by omega), hin (by omega)⟩

/-! ### The map of operations -/

/-- A name without operation is in no bucket. -/
lemma operation?_eq_none : c.operation? n = none ↔ ∀ a, c.holds a n = false := by
  simp only [operation?, Option.or_eq_none_iff, Option.map_eq_none_iff]
  constructor
  · rintro ⟨hadd, hdelete, hcopy, hmove⟩ a
    cases a with
    | add => simp [holds, NameMap.contains, hadd]
    | delete => simp [holds, NameMap.contains, hdelete]
    | copy => simp [holds, NameMap.contains, hcopy]
    | move => simp [holds, NameMap.contains, hmove]
  · intro h
    exact ⟨by simpa [holds, NameMap.contains] using h .add,
      by simpa [holds, NameMap.contains] using h .delete,
      by simpa [holds, NameMap.contains] using h .copy,
      by simpa [holds, NameMap.contains] using h .move⟩

/-- The bucket of uploads comes first. -/
lemma operation?_eq_add_iff {u : Upload} :
    c.operation? n = some (.add u) ↔ c.toAdd.get? n = some u := by
  unfold operation?
  cases hadd : c.toAdd.get? n with
  | some u' => simp
  | none =>
    cases c.toDelete.get? n <;> cases c.toCopy.get? n <;> cases c.toMove.get? n <;> simp

/-- The first bucket that holds a name is that of its operation. -/
lemma actionOf_eq (c : Commit) (n : String) :
    c.actionOf n = (c.operation? n).map Operation.action := by
  unfold actionOf operation? NameMap.contains
  cases hadd : c.toAdd.get? n with
  | some u => simp [Operation.action]
  | none =>
    cases hdelete : c.toDelete.get? n with
    | some u => simp [Operation.action]
    | none =>
      cases hcopy : c.toCopy.get? n with
      | some t => simp [Operation.action]
      | none =>
        cases hmove : c.toMove.get? n with
        | some t => simp [Operation.action]
        | none => rfl

lemma holds_of_actionOf {a : Action} (h : c.actionOf n = some a) : c.holds a n = true := by
  unfold actionOf at h
  split_ifs at h with h1 h2 h3 h4
  · rwa [← Option.some.inj h]
  · rwa [← Option.some.inj h]
  · rwa [← Option.some.inj h]
  · rwa [← Option.some.inj h]

lemma isEmpty_iff : c.isEmpty = true ↔ ∀ n, c.operation? n = none := by
  simp only [isEmpty, Bool.and_eq_true, NameMap.isEmpty_iff, operation?, Option.or_eq_none_iff,
    Option.map_eq_none_iff]
  constructor
  · rintro ⟨⟨⟨hadd, hdelete⟩, hcopy⟩, hmove⟩ n
    exact ⟨hadd n, hdelete n, hcopy n, hmove n⟩
  · intro h
    exact ⟨⟨⟨fun n => (h n).1, fun n => (h n).2.1⟩, fun n => (h n).2.2.1⟩, fun n => (h n).2.2.2⟩

lemma eq_empty_of_isEmpty (h : c.isEmpty = true) : c = empty := by
  obtain ⟨toAdd, toDelete, toCopy, toMove⟩ := c
  simp only [isEmpty, Bool.and_eq_true] at h
  obtain ⟨⟨⟨hadd, hdelete⟩, hcopy⟩, hmove⟩ := h
  rw [NameMap.eq_empty_of_isEmpty hadd, NameMap.eq_empty_of_isEmpty hdelete,
    NameMap.eq_empty_of_isEmpty hcopy, NameMap.eq_empty_of_isEmpty hmove]
  rfl

/-! ### Patches that hold a whole commit -/

@[simp] lemma ofPatch_ofCommit (c : Commit) : ofPatch (.ofCommit c) = c := rfl

lemma empty_overlay (p : Patch) : empty.overlay p = ofPatch p := by
  simp [overlay, empty]

/-! ### Taking a name out -/

lemma holds_without (c : Commit) (n m : String) (a b : Action) :
    (c.without n b).holds a m = (c.holds a m && !(a = b && n = m)) := by
  by_cases hnm : n = m
  · subst hnm
    cases a <;> cases b <;> simp [without, holds, NameMap.contains]
  · cases a <;> cases b <;> simp [without, holds, NameMap.contains, hnm]

lemma Sole.without (h : c.Sole) (n : String) (b : Action) : (c.without n b).Sole := by
  intro m a a' ha ha'
  rw [holds_without, Bool.and_eq_true] at ha ha'
  exact h m a a' ha.1 ha'.1

/-- A name that is taken out of its bucket has no operation, the others keep theirs. -/
lemma operation?_without (h : c.Sole) {b : Action} (hb : c.holds b n = true) (m : String) :
    (c.without n b).operation? m = if m = n then none else c.operation? m := by
  split_ifs with hm
  · subst hm
    rw [operation?_eq_none]
    intro a
    rw [holds_without]
    by_cases ha : c.holds a m = true
    · simp [h m a b ha hb]
    · simp [ha]
  · have hne : n ≠ m := Ne.symm hm
    cases b <;> simp [Commit.without, operation?, hne]

end Commit

/-! ### Batches -/

/-- The operation that a batch asks for, if it names the package. -/
def Batch.operation? : Batch → String → Option Operation
  | .add uploads, n => (uploads.get? n).map .add
  | .delete names, n => if n ∈ names then some .delete else none
  | .copy names target, n => if n ∈ names then some (.copy target) else none
  | .move names target, n => if n ∈ names then some (.move target) else none

lemma Batch.operation?_isSome_iff {b : Batch} {n : String} :
    (b.operation? n).isSome ↔ n ∈ b.names := by
  cases b with
  | add uploads => simp [operation?, names, NameMap.mem_names_iff]
  | delete ns => simp [operation?, names]
  | copy ns target => simp [operation?, names]
  | move ns target => simp [operation?, names]

namespace Commit

variable {c : Commit} {n : String}

/-- In one bucket only, a name is in no other. -/
lemma Sole.get?_eq_none {α : Type} {bucket : NameMap α} (h : c.Sole) {a b : Action}
    (hb : c.holds b n = true) (hne : a ≠ b) (hbucket : c.holds a n = bucket.contains n) :
    bucket.get? n = none := by
  by_contra hsome
  have ha : c.holds a n = true := by
    rw [hbucket, NameMap.contains]
    exact Option.isSome_iff_ne_none.2 hsome
  exact hne (h n a b ha hb)

/-- A name in the bucket of copies is to be copied. -/
lemma Sole.operation?_of_copy (h : c.Sole) {t : SectionAddress} (ht : c.toCopy.get? n = some t) :
    c.operation? n = some (.copy t) := by
  have hb : c.holds .copy n = true := by
    rw [holds, NameMap.contains, ht]
    rfl
  have hadd := h.get?_eq_none (a := .add) hb (by decide) rfl
  have hdelete := h.get?_eq_none (a := .delete) hb (by decide) rfl
  simp [operation?, hadd, hdelete, ht]

/-- A name in the bucket of moves is to be moved. -/
lemma Sole.operation?_of_move (h : c.Sole) {t : SectionAddress} (ht : c.toMove.get? n = some t) :
    c.operation? n = some (.move t) := by
  have hb : c.holds .move n = true := by
    rw [holds, NameMap.contains, ht]
    rfl
  have hadd := h.get?_eq_none (a := .add) hb (by decide) rfl
  have hdelete := h.get?_eq_none (a := .delete) hb (by decide) rfl
  have hcopy := h.get?_eq_none (a := .copy) hb (by decide) rfl
  simp [operation?, hadd, hdelete, hcopy, ht]

/-- A patch that is put over a commit wins, name by name. -/
lemma operation?_overlay {p : Patch} (h : (c.overlay p).Sole) (n : String) :
    (c.overlay p).operation? n = ((ofPatch p).operation? n).or (c.operation? n) := by
  have hadd : (c.overlay p).toAdd.get? n =
      ((ofPatch p).toAdd.get? n).or (c.toAdd.get? n) := NameMap.get?_overlay _ _ _
  have hdelete : (c.overlay p).toDelete.get? n =
      ((ofPatch p).toDelete.get? n).or (c.toDelete.get? n) := NameMap.get?_overlay _ _ _
  have hcopy : (c.overlay p).toCopy.get? n =
      ((ofPatch p).toCopy.get? n).or (c.toCopy.get? n) := NameMap.get?_overlay _ _ _
  have hmove : (c.overlay p).toMove.get? n =
      ((ofPatch p).toMove.get? n).or (c.toMove.get? n) := NameMap.get?_overlay _ _ _
  -- the first bucket of the patch that holds the name decides; no other bucket then holds it
  cases hpadd : (ofPatch p).toAdd.get? n with
  | some u => simp [operation?, hadd, hpadd]
  | none =>
    rw [hpadd, Option.none_or] at hadd
    cases hpdelete : (ofPatch p).toDelete.get? n with
    | some u =>
      rw [hpdelete, Option.some_or] at hdelete
      have hb : (c.overlay p).holds .delete n = true := by
        rw [holds, NameMap.contains, hdelete]
        rfl
      have hnone := h.get?_eq_none (a := .add) hb (by decide) rfl
      simp [operation?, hnone, hdelete, hpadd, hpdelete]
    | none =>
      rw [hpdelete, Option.none_or] at hdelete
      cases hpcopy : (ofPatch p).toCopy.get? n with
      | some t =>
        rw [hpcopy, Option.some_or] at hcopy
        have hb : (c.overlay p).holds .copy n = true := by
          rw [holds, NameMap.contains, hcopy]
          rfl
        have hnone := h.get?_eq_none (a := .add) hb (by decide) rfl
        have hnone' := h.get?_eq_none (a := .delete) hb (by decide) rfl
        simp [operation?, hnone, hnone', hcopy, hpadd, hpdelete, hpcopy]
      | none =>
        rw [hpcopy, Option.none_or] at hcopy
        cases hpmove : (ofPatch p).toMove.get? n with
        | some t =>
          rw [hpmove, Option.some_or] at hmove
          have hb : (c.overlay p).holds .move n = true := by
            rw [holds, NameMap.contains, hmove]
            rfl
          have hnone := h.get?_eq_none (a := .add) hb (by decide) rfl
          have hnone' := h.get?_eq_none (a := .delete) hb (by decide) rfl
          have hnone'' := h.get?_eq_none (a := .copy) hb (by decide) rfl
          simp [operation?, hnone, hnone', hnone'', hmove, hpadd, hpdelete, hpcopy, hpmove]
        | none =>
          rw [hpmove, Option.none_or] at hmove
          simp [operation?, hadd, hdelete, hcopy, hmove, hpadd, hpdelete, hpcopy, hpmove]

end Commit

/-- The patch of a batch holds its operations. -/
lemma Batch.operation?_patch (b : Batch) (n : String) :
    (Commit.ofPatch b.patch).operation? n = b.operation? n := by
  cases b with
  | add uploads =>
    simp [Commit.operation?, Commit.ofPatch, patch, Patch.add, Patch.none, operation?]
  | delete ns =>
    have hget := NameMap.get?_ofList_const ns () n
    rw [operation?, Commit.operation?, Commit.ofPatch]
    simp only [patch, Patch.delete, Patch.none, NameSet.ofNames, Option.getD_none, Option.getD_some,
      NameMap.get?_empty, hget]
    split_ifs <;> rfl
  | copy ns target =>
    have hget := NameMap.get?_ofList_const ns target n
    rw [operation?, Commit.operation?, Commit.ofPatch]
    simp only [patch, Patch.copy, Patch.none, Patch.transfer, Option.getD_none, Option.getD_some,
      NameMap.get?_empty, hget]
    split_ifs <;> rfl
  | move ns target =>
    have hget := NameMap.get?_ofList_const ns target n
    rw [operation?, Commit.operation?, Commit.ofPatch]
    simp only [patch, Patch.move, Patch.none, Patch.transfer, Option.getD_none, Option.getD_some,
      NameMap.get?_empty, hget]
    split_ifs <;> rfl

end PackageStaging
