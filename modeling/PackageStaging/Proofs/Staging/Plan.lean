/-
# Plans

A plan says what is to be done with each package of each section.  A staging area is the plan
`StagingArea.plan`, and what is done to it is done to this plan: a batch puts its operations over
those that were planned (`plan_restage`), and unstaging takes out what it names
(`plan_unstageAll`, `plan_unstageSection`).
-/
import Mathlib.Data.List.Find
import PackageStaging.Proofs.Staging.Keys
import PackageStaging.Proofs.Staging.Restaging

namespace PackageStaging

/-- What is to be done with the packages of the sections. -/
abbrev Plan := SectionAddress → String → Option Operation

namespace Plan

/-- The plan to do nothing. -/
def nothing : Plan := fun _ _ => none

/-- The plan with a batch for a section put over it. -/
def withBatch (plan : Plan) (s : SectionAddress) (b : Batch) : Plan := fun s' n =>
  if s' = s then (b.operation? n).or (plan s' n) else plan s' n

/-- The plan without some packages of a section. -/
def without (plan : Plan) (s : SectionAddress) (ns : List String) : Plan := fun s' n =>
  if s' = s ∧ n ∈ ns then none else plan s' n

/-- The plan without a section. -/
def withoutSection (plan : Plan) (s : SectionAddress) : Plan := fun s' n =>
  if s' = s then none else plan s' n

end Plan

/-! ### The plan of a staging area -/

namespace StagingArea

open SectionAddress

variable {a b : StagingArea} {k : SectionKey} {s : SectionAddress} {ns : List String}

/-- What is staged for a package of a section. -/
def plan (a : StagingArea) : Plan := fun s n =>
  (a.entries.find? fun e => e.origin = s).bind fun e => e.commit.operation? n

lemma plan_eq (h : a.WellFormed) (hs : s.KeyedBy k) (n : String) :
    a.plan s n = a.operation? k n := by
  -- among the entries of a well-formed area, a section and its key pick the same one
  have hsame : (a.entries.find? fun e => e.origin = s) = a.entries.find? fun e => e.key = k := by
    refine List.find?_congr fun e he => ?_
    rw [decide_eq_decide]
    exact hs.eq_iff ⟨h.keys e he, rfl⟩
  rw [plan, hsame, operation?, find?]
  cases a.entries.find? fun e => e.key = k with
  | none => rfl
  | some e => rfl

lemma plan_eq_none (h : a.WellFormed) (hs : ¬∃ k, s.KeyedBy k) (n : String) :
    a.plan s n = none := by
  have hnone : (a.entries.find? fun e => e.origin = s) = none := by
    rw [List.find?_eq_none]
    intro e he hsame
    have horigin : e.origin = s := by simpa using hsame
    exact hs ⟨e.key, horigin ▸ h.keys e he, horigin⟩
  rw [plan, hnone]
  rfl

/-- A plan of sections that have keys is known by the operations under the keys. -/
lemma plan_ext (h : b.WellFormed) {plan : Plan}
    (hkey : ∀ s k n, s.KeyedBy k → b.operation? k n = plan s n)
    (hnone : ∀ s n, (¬∃ k, s.KeyedBy k) → plan s n = none) : b.plan = plan := by
  funext s n
  by_cases hs : ∃ k, s.KeyedBy k
  · obtain ⟨k, hk⟩ := hs
    rw [plan_eq h hk, hkey s k n hk]
  · rw [plan_eq_none h hs, hnone s n hs]

lemma plan_empty : empty.plan = Plan.nothing := rfl

/-- The last batch wins. -/
theorem plan_restage (h : a.WellFormed) (hs : s.KeyedBy k) {batch : Batch}
    {log : List Rerouting} (hb : a.restage s batch = .ok (b, log)) :
    b.WellFormed ∧ b.plan = a.plan.withBatch s batch := by
  obtain ⟨hwf, hmap⟩ := restage_spec h hs.1 hs.address hb
  refine ⟨hwf, plan_ext hwf ?_ ?_⟩
  · intro s' k' n hs'
    simp only [hmap, Plan.withBatch, hs.eq_iff hs', plan_eq h hs']
    split_ifs with hk
    · rw [hk]
    · rfl
  · intro s' n hs'
    have hne : s' ≠ s := by
      rintro rfl
      exact hs' ⟨k, hs⟩
    rw [Plan.withBatch, if_neg hne, plan_eq_none h hs']

theorem plan_unstageAll (h : a.WellFormed) (hs : s.KeyedBy k)
    (hb : a.unstageAll s ns = .ok b) : b.WellFormed ∧ b.plan = a.plan.without s ns := by
  obtain ⟨hwf, hmap⟩ := unstageAll_spec h hs.1 hb
  refine ⟨hwf, plan_ext hwf ?_ ?_⟩
  · intro s' k' n hs'
    simp only [hmap, Plan.without, hs.eq_iff hs', plan_eq h hs']
  · intro s' n hs'
    rw [Plan.without, plan_eq_none h hs', ite_self]

theorem plan_unstageSection (h : a.WellFormed) (hs : s.KeyedBy k)
    (hb : a.unstageSection s = .ok b) : b.WellFormed ∧ b.plan = a.plan.withoutSection s := by
  obtain ⟨hwf, hmap⟩ := unstageSection_spec h hs.1 hb
  refine ⟨hwf, plan_ext hwf ?_ ?_⟩
  · intro s' k' n hs'
    simp only [hmap, Plan.withoutSection, hs.eq_iff hs', plan_eq h hs']
  · intro s' n hs'
    rw [Plan.withoutSection, plan_eq_none h hs', ite_self]

/-- Packages can be taken out if they are all different and all staged. -/
theorem unstageAll_isOk_iff_plan (h : a.WellFormed) (hs : s.KeyedBy k) :
    (∃ b, a.unstageAll s ns = .ok b) ↔ ns.Nodup ∧ ∀ n ∈ ns, (a.plan s n).isSome := by
  simp only [unstageAll_isOk_iff h hs.1, plan_eq h hs]

/-- A section can be taken out if something is staged in it. -/
theorem unstageSection_isOk_iff_plan (h : a.WellFormed) (hs : s.KeyedBy k) :
    (∃ b, a.unstageSection s = .ok b) ↔ ∃ n op, a.plan s n = some op := by
  simp only [unstageSection_isOk_iff h hs.1, plan_eq h hs]

/-- What is planned by the one is staged by the other. -/
lemma operation?_of_plan (ha : a.WellFormed) (hb : b.WellFormed)
    (hless : ∀ s n op, b.plan s n = some op → a.plan s n = some op) {n : String} {op : Operation}
    (hop : b.operation? k n = some op) : a.operation? k n = some op := by
  obtain ⟨c, hc, -⟩ := Option.bind_eq_some_iff.1 hop
  have hs : k.address.KeyedBy k := ⟨key_of_find? hb hc, rfl⟩
  rw [← plan_eq ha hs]
  exact hless _ _ _ (by rw [plan_eq hb hs, hop])

end StagingArea

end PackageStaging
