/-
# What is staged properly

What commands stage is more than well-formed: an upload is staged in the section that it goes to,
under its own name and with the files that belong to it, and copies and moves lead to complete
sections.  `Plan.Proper` says so of a plan, and putting a proper batch over it or taking something
out of it keeps it so.  Of a proper area the form that is sent says for each package in which
section it is staged (`sentAsStaged`), and what it may lack is one of its two files
(`encode_eq_error_of_proper`).
-/
import PackageStaging.Proofs.Payload.ReadBack
import PackageStaging.Proofs.Staging.Grouping
import PackageStaging.Proofs.Staging.Plan

namespace PackageStaging

/-! ### Plans -/

/-- The operation is a proper one for a package of this name in this section. -/
def Operation.Proper (s : SectionAddress) (n : String) : Operation → Prop
  | .add u => u.Grouped s n
  | .delete => True
  | .copy target | .move target => target.isComplete = true

/-- The batch holds proper operations for the section. -/
def Batch.Proper (s : SectionAddress) (b : Batch) : Prop :=
  ∀ n op, b.operation? n = some op → op.Proper s n

namespace Batch

variable {s target : SectionAddress} {names : List String}

lemma proper_add (s : SectionAddress) (paths : List Path) :
    (add (groupFiles s paths)).Proper s := by
  intro n op h
  obtain ⟨u, hu, rfl⟩ := Option.map_eq_some_iff.1 h
  exact allGrouped_groupFiles s paths n u hu

lemma proper_delete (s : SectionAddress) (names : List String) : (delete names).Proper s := by
  intro n op h
  rw [operation?] at h
  split_ifs at h
  rw [← Option.some.inj h]
  trivial

lemma proper_copy (h : target.isComplete = true) : (copy names target).Proper s := by
  intro n op hop
  rw [operation?] at hop
  split_ifs at hop
  rw [← Option.some.inj hop]
  exact h

lemma proper_move (h : target.isComplete = true) : (move names target).Proper s := by
  intro n op hop
  rw [operation?] at hop
  split_ifs at hop
  rw [← Option.some.inj hop]
  exact h

end Batch

namespace Plan

/-- All operations are proper ones. -/
def Proper (plan : Plan) : Prop := ∀ s n op, plan s n = some op → op.Proper s n

variable {plan : Plan} {s : SectionAddress}

lemma proper_nothing : Proper nothing := fun _ _ _ h => nomatch h

lemma Proper.withBatch (h : plan.Proper) {b : Batch} (hb : b.Proper s) :
    (plan.withBatch s b).Proper := by
  intro s' n op hop
  rw [Plan.withBatch] at hop
  split_ifs at hop with hs
  · subst hs
    rcases Option.or_eq_some_iff.1 hop with hop | ⟨-, hop⟩
    · exact hb n op hop
    · exact h s' n op hop
  · exact h s' n op hop

lemma Proper.without (h : plan.Proper) (s : SectionAddress) (ns : List String) :
    (plan.without s ns).Proper := by
  intro s' n op hop
  rw [Plan.without] at hop
  split_ifs at hop
  exact h s' n op hop

lemma Proper.withoutSection (h : plan.Proper) (s : SectionAddress) :
    (plan.withoutSection s).Proper := by
  intro s' n op hop
  rw [Plan.withoutSection] at hop
  split_ifs at hop
  exact h s' n op hop

end Plan

/-! ### Staging areas -/

namespace StagingArea

variable {a : StagingArea}

/-- Every upload is staged under its name in the section that it goes to, and copies and moves lead
to complete sections. -/
structure Proper (a : StagingArea) : Prop where
  origins : ∀ e ∈ a.entries, e.origin.isComplete = true
  uploads : ∀ e ∈ a.entries, ∀ n u, (n, u) ∈ e.commit.toAdd.entries → u.Grouped e.origin n
  copies : ∀ e ∈ a.entries, ∀ n t, (n, t) ∈ e.commit.toCopy.entries → t.isComplete = true
  moves : ∀ e ∈ a.entries, ∀ n t, (n, t) ∈ e.commit.toMove.entries → t.isComplete = true

/-- The plan of a section is its commit. -/
lemma plan_of_mem (h : a.WellFormed) {e : StagedCommit} (he : e ∈ a.entries) (n : String) :
    a.plan e.origin n = e.commit.operation? n := by
  rw [plan_eq h ⟨h.keys e he, rfl⟩, operation?, find?_of_mem h.distinct he]
  rfl

/-- An area that follows a proper plan is proper. -/
theorem proper_of_plan (h : a.WellFormed) (hplan : a.plan.Proper) : a.Proper := by
  have hproper : ∀ e ∈ a.entries, ∀ n op, e.commit.operation? n = some op → op.Proper e.origin n :=
    fun e he n op hop => hplan e.origin n op ((plan_of_mem h he n).trans hop)
  refine ⟨fun e he => (SectionAddress.key?_eq_some_iff.1 (h.keys e he)).1, ?_, ?_, ?_⟩
  · intro e he n u hu
    exact hproper e he n _ (Commit.operation?_eq_add_iff.2 (e.commit.toAdd.get?_eq_some_iff.2 hu))
  · intro e he n t ht
    exact hproper e he n _
      ((h.sole e he).operation?_of_copy (e.commit.toCopy.get?_eq_some_iff.2 ht))
  · intro e he n t ht
    exact hproper e he n _
      ((h.sole e he).operation?_of_move (e.commit.toMove.get?_eq_some_iff.2 ht))

/-- The uploads of all sections, each with the section that it is staged in and its name. -/
def stagedUploads (a : StagingArea) : List (SectionAddress × String × Upload) :=
  a.entries.flatMap fun e => e.commit.toAdd.entries.map fun t => (e.origin, t)

lemma map_snd_stagedUploads (a : StagingArea) : a.stagedUploads.map Prod.snd = a.uploads := by
  rw [stagedUploads, uploads, List.map_flatMap]
  congr 1
  funext e
  rw [List.map_map]
  exact List.map_id _

lemma Proper.of_mem (h : a.Proper) {s : SectionAddress} {n : String} {u : Upload}
    (hu : (s, n, u) ∈ a.stagedUploads) : u.Grouped s n ∧ s.isComplete = true := by
  obtain ⟨e, he, hmem⟩ := List.mem_flatMap.1 hu
  obtain ⟨t, ht, heq⟩ := List.mem_map.1 hmem
  cases heq
  exact ⟨h.uploads e he n u ht, h.origins e he⟩

/-- Each upload is grouped for a complete section. -/
lemma Proper.exists_of_mem (h : a.Proper) {t : String × Upload} (ht : t ∈ a.uploads) :
    ∃ s, t.2.Grouped s t.1 ∧ s.isComplete = true := by
  rw [← map_snd_stagedUploads] at ht
  obtain ⟨⟨s, n, u⟩, hmem, rfl⟩ := List.mem_map.1 ht
  exact ⟨s, h.of_mem hmem⟩

end StagingArea

/-! ### What is missing -/

namespace Upload

variable {s : SectionAddress} {n : String} {u : Upload}

/-- Nothing is missing of a grouped upload, or its package file, or its signature. -/
lemma Grouped.cases (h : u.Grouped s n) (hs : s.isComplete = true) :
    (u.ready?.isSome ∧ ∃ f g, u.file = some f ∧ u.signature = some g) ∨
      (u.ready? = none ∧ u.missing = [.packageFile] ∧ u.file = none ∧
        ∃ g, u.signature = some g) ∨
      u.ready? = none ∧ u.missing = [.signatureFile] ∧ u.signature = none ∧
        ∃ f, u.file = some f := by
  obtain ⟨hbranch, hrepository, harchitecture⟩ := SectionAddress.isComplete_iff.1 hs
  have htarget := h.target
  have hpresent := h.present
  obtain ⟨name, target, file, signature⟩ := u
  dsimp only at htarget hpresent
  subst htarget
  cases file with
  | some f =>
    cases signature with
    | some g =>
      refine .inl ⟨?_, f, g, rfl, rfl⟩
      simp [ready?, missing, hbranch, hrepository, harchitecture]
    | none =>
      refine .inr (.inr ⟨rfl, ?_, rfl, f, rfl⟩)
      simp [missing, hbranch, hrepository, harchitecture]
  | none =>
    cases signature with
    | some g =>
      refine .inr (.inl ⟨rfl, ?_, rfl, g, rfl⟩)
      simp [missing, hbranch, hrepository, harchitecture]
    | none => simp at hpresent

end Upload

namespace Payload

variable {a : StagingArea} {p : Payload}

/-- A proper area is refused for one file that is missing. -/
lemma encode_eq_error_of_proper (ha : a.Proper) {err : Error} (h : encode a = .error err) :
    ∃ n r, err = .missingFields n [r] ∧ (r = .packageFile ∨ r = .signatureFile) := by
  obtain ⟨before, t, after, hsplit, -, hready, rfl⟩ := encode_eq_error h
  obtain ⟨s, hgrouped, hs⟩ := ha.exists_of_mem (t := t) (by simp [hsplit])
  rcases hgrouped.cases hs with ⟨hsome, -⟩ | ⟨-, hmissing, -⟩ | ⟨-, hmissing, -⟩
  · rw [hready] at hsome
    exact nomatch hsome
  · exact ⟨t.1, _, by rw [hmissing], .inl rfl⟩
  · exact ⟨t.1, _, by rw [hmissing], .inr rfl⟩

/-- The form sends the uploads one by one, each with its files and with the section in which it is
staged. -/
structure SentAsStaged (a : StagingArea) (p : Payload) : Prop where
  count : p.packageCount = a.stagedUploads.length
  package : ∀ i s n u, a.stagedUploads[i]? = some (s, n, u) →
    p.file? (packageField (i + 1) "filepath") = u.file ∧
      p.file? (packageField (i + 1) "signature") = u.signature ∧
      p.text? (packageField (i + 1) "section") = some (Wire.sectionValue s).compactText
  /-- There are no other packages. -/
  numbers : ∀ number item, packageField number item ∈ p.fields →
    1 ≤ number ∧ number ≤ p.packageCount

lemma sentAsStaged (ha : a.Proper) (h : encode a = .ok p) : SentAsStaged a p := by
  have hread := readBack h
  refine ⟨?_, ?_, hread.numbers⟩
  · rw [packageCount_of_encode h, ← StagingArea.map_snd_stagedUploads, List.length_map]
  · intro i s n u hi
    have hplace : a.uploads[i]? = some (n, u) := by
      rw [← StagingArea.map_snd_stagedUploads, List.getElem?_map, hi]
      rfl
    obtain ⟨v, hv, hparts⟩ := parts_of_upload h hplace
    obtain ⟨hfile, hsignature, htarget⟩ := ready?_eq_some hv
    have hgrouped := (ha.of_mem (List.mem_of_getElem? hi)).1
    rw [file?_of_mem hread.fields (hparts _ (.head _)),
      file?_of_mem hread.fields (hparts _ (.tail _ (.head _))),
      text?_of_mem hread.fields (hparts _ (.tail _ (.tail _ (.head _)))), ← htarget,
      hgrouped.target]
    exact ⟨hfile.symm, hsignature.symm, rfl⟩

end Payload

end PackageStaging
