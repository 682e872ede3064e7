/-
# Which file goes where

Each path with a file name belongs into one slot of one package: it is the package file of its own
name, or the signature of the package before the ending `.sig`.  Of all paths that belong into a
slot the last one of the list stays there, and a package has an upload if one of its slots is taken
(`get?_groupFiles`).  So long as no two file names are the same, no path takes the slot of another
one, and their order does not matter (`grouping_exact`).
-/
import Mathlib.Data.List.Induction
import Mathlib.Data.List.Pairwise
import Mathlib.Data.List.Perm.Basic
import PackageStaging.Proofs.Staging.Grouping

namespace PackageStaging

/-! ### File names -/

/-- Some character is read from any bytes. -/
lemma Utf8.lossy_ne_empty {bytes : Bytes} (h : bytes ≠ []) : lossy bytes ≠ "" := by
  have hpieces : pieces bytes ≠ [] := by
    unfold pieces
    split
    · exact absurd rfl h
    · split_ifs
      · simp
      · repeat' split
        all_goals simp
  simpa [lossy, ← String.toList_eq_nil_iff] using hpieces

namespace Path

/-- The file name of the path as a text, if it has one. -/
def name? (p : Path) : Option String := p.fileName?.map Utf8.lossy

lemma ne_nil_of_entry {p : Path} {name : Bytes} (h : .entry name ∈ p.components) : name ≠ [] := by
  have hsteps : .entry name ∈ (segments p.bytes).filterMap Component.ofSegment := by
    unfold components at h
    dsimp only at h
    split_ifs at h
    · simpa using h
    · simpa using h
    · exact h
  obtain ⟨s, -, hs⟩ := List.mem_filterMap.1 hsteps
  unfold Component.ofSegment at hs
  split_ifs at hs with hidle
  · cases hs
  · cases hs
    exact fun hnil => hidle (.inl hnil)

/-- A file name is not empty. -/
lemma name?_ne_empty (p : Path) : p.name? ≠ some "" := by
  intro h
  obtain ⟨name, hname, hlossy⟩ := Option.map_eq_some_iff.1 h
  refine Utf8.lossy_ne_empty (ne_nil_of_entry (p := p) ?_) hlossy
  unfold fileName? at hname
  split at hname
  · next hlast =>
    cases hname
    exact List.mem_of_getLast? hlast
  · exact nomatch hname

lemma fileName_eq (p : Path) : p.fileName = p.name?.getD "" := by
  unfold fileName name?
  cases p.fileName? with
  | none => rfl
  | some name => rfl

end Path

/-! ### Slots -/

/-- A place for a file in an upload. -/
inductive Upload.Slot where
  | file
  | signature
deriving DecidableEq, Repr

lemma Upload.Slot.exists_iff {P : Upload.Slot → Prop} : (∃ k, P k) ↔ P .file ∨ P .signature := by
  constructor
  · rintro ⟨k, hk⟩
    cases k with
    | file => exact .inl hk
    | signature => exact .inr hk
  · rintro (h | h)
    · exact ⟨_, h⟩
    · exact ⟨_, h⟩

instance {P : Upload.Slot → Prop} [DecidablePred P] : Decidable (∃ k, P k) :=
  decidable_of_iff _ Upload.Slot.exists_iff.symm

namespace Upload

/-- The file in a slot. -/
def artifact? (u : Upload) : Slot → Option Artifact
  | .file => u.file
  | .signature => u.signature

/-- The upload with a file in a slot. -/
def filled (u : Upload) (a : Artifact) : Slot → Upload
  | .file => { u with file := some a }
  | .signature => { u with signature := some a }

end Upload

namespace Path

/-- The path belongs into this slot of the package of this name. -/
def Fills (p : Path) (n : String) : Upload.Slot → Prop
  | .file => p.name? = some n ∧ ¬∃ stem, stem ≠ "" ∧ n = stem ++ ".sig"
  | .signature => n ≠ "" ∧ p.name? = some (n ++ ".sig")

/-- The package and the slot that the path belongs into, if it has a file name. -/
def slot? (p : Path) : Option (String × Upload.Slot) :=
  p.name?.map fun f =>
    match signedName? f with
    | some n => (n, .signature)
    | none => (f, .file)

variable {p : Path} {n : String} {k : Upload.Slot}

/-- A path belongs into one slot at most. -/
lemma fills_iff : p.Fills n k ↔ p.slot? = some (n, k) := by
  unfold slot?
  rw [Option.map_eq_some_iff]
  constructor
  · intro h
    cases k with
    | file =>
      obtain ⟨hname, hplain⟩ := h
      have hunsigned : signedName? n = none := by
        rw [Option.eq_none_iff_forall_ne_some]
        exact fun stem hstem => hplain ⟨stem, signedName?_eq_some_iff.1 hstem⟩
      exact ⟨n, hname, by rw [hunsigned]⟩
    | signature =>
      have hsigned : signedName? (n ++ ".sig") = some n := signedName?_eq_some_iff.2 ⟨h.1, rfl⟩
      exact ⟨n ++ ".sig", h.2, by rw [hsigned]⟩
  · rintro ⟨f, hf, hslot⟩
    split at hslot
    · next m hm =>
      obtain ⟨hne, rfl⟩ := signedName?_eq_some_iff.1 hm
      cases hslot
      exact ⟨hne, hf⟩
    · next hunsigned =>
      cases hslot
      refine ⟨hf, ?_⟩
      rintro ⟨stem, hstem⟩
      rw [signedName?_eq_some_iff.2 hstem] at hunsigned
      exact nomatch hunsigned

instance : Decidable (p.Fills n k) := decidable_of_iff _ fills_iff.symm

lemma slot?_isSome : p.slot?.isSome = p.name?.isSome := Option.isSome_map

end Path

/-! ### Uploads from paths -/

variable {s : SectionAddress} {m : NameMap Upload} {n : String} {k : Upload.Slot} {p : Path}
  {paths : List Path}

/-- One more file is put into its slot. -/
lemma groupFile_eq (s : SectionAddress) (m : NameMap Upload) (p : Path) :
    groupFile s m p =
      match p.slot? with
      | none => m
      | some (n, k) => m.alter n fun u => (u.getD (.bare n s)).filled ⟨p⟩ k := by
  unfold groupFile Path.slot?
  rw [p.fileName_eq]
  cases hp : p.name? with
  | none => rfl
  | some f =>
    have hf : f ≠ "" := fun h => p.name?_ne_empty (h ▸ hp)
    simp only [Option.getD_some, if_neg hf, Option.map_some]
    cases signedName? f with
    | none => rfl
    | some n => rfl

/-- The last path of a list that belongs into a slot. -/
def lastFor (n : String) (k : Upload.Slot) (paths : List Path) : Option Path :=
  (paths.filter fun p => p.Fills n k).getLast?

lemma lastFor_concat (paths : List Path) (p : Path) :
    lastFor n k (paths ++ [p]) = if p.Fills n k then some p else lastFor n k paths := by
  unfold lastFor
  rw [List.filter_append]
  split_ifs with hp
  · simp [hp]
  · simp [hp]

lemma lastFor_eq_none_iff : lastFor n k paths = none ↔ ∀ p ∈ paths, ¬p.Fills n k := by
  simp [lastFor]

/-- The upload of a package with the last path for each of its slots. -/
def Upload.ofPaths (s : SectionAddress) (n : String) (paths : List Path) : Upload :=
  ⟨n, s, (lastFor n .file paths).map .mk, (lastFor n .signature paths).map .mk⟩

lemma ofPaths_eq_bare (h : ∀ p ∈ paths, ∀ k, ¬p.Fills n k) :
    Upload.ofPaths s n paths = .bare n s := by
  have hnone : ∀ k, lastFor n k paths = none := fun k => lastFor_eq_none_iff.2 fun p hp => h p hp k
  rw [Upload.ofPaths, hnone, hnone]
  rfl

lemma ofPaths_concat (hp : p.slot? = some (n, k)) :
    Upload.ofPaths s n (paths ++ [p]) = (Upload.ofPaths s n paths).filled ⟨p⟩ k := by
  have hfills : ∀ k', p.Fills n k' ↔ k' = k := by
    intro k'
    rw [Path.fills_iff, hp]
    simp [eq_comm]
  cases k with
  | file => simp [Upload.ofPaths, lastFor_concat, hfills, Upload.filled]
  | signature => simp [Upload.ofPaths, lastFor_concat, hfills, Upload.filled]

lemma ofPaths_concat_of_ne (hp : ∀ k, p.slot? ≠ some (n, k)) :
    Upload.ofPaths s n (paths ++ [p]) = Upload.ofPaths s n paths := by
  have hfills : ∀ k, ¬p.Fills n k := fun k h => hp k (Path.fills_iff.1 h)
  simp [Upload.ofPaths, lastFor_concat, hfills]

/-- A package has an upload if a path belongs to it, and of the paths for each slot the last one
stays. -/
lemma get?_groupFiles (s : SectionAddress) (paths : List Path) (n : String) :
    (groupFiles s paths).get? n =
      if ∃ p ∈ paths, ∃ k, p.Fills n k then some (Upload.ofPaths s n paths) else none := by
  induction paths using List.reverseRecOn with
  | nil => simp [groupFiles]
  | append_singleton paths p ih =>
    have hstep : groupFiles s (paths ++ [p]) = groupFile s (groupFiles s paths) p := by
      simp [groupFiles]
    have hsplit : (∃ q ∈ paths ++ [p], ∃ k, q.Fills n k) ↔
        (∃ q ∈ paths, ∃ k, q.Fills n k) ∨ ∃ k, p.Fills n k := by
      simp [or_and_right, exists_or]
    rw [hstep, groupFile_eq, if_congr hsplit rfl rfl]
    by_cases hp : ∃ k, p.slot? = some (n, k)
    · obtain ⟨k, hk⟩ := hp
      have hbefore : ((groupFiles s paths).get? n).getD (.bare n s) = .ofPaths s n paths := by
        rw [ih]
        split_ifs with hsome
        · rfl
        · push Not at hsome
          exact (ofPaths_eq_bare hsome).symm
      rw [hk, if_pos (.inr ⟨k, Path.fills_iff.2 hk⟩), ofPaths_concat hk, ← hbefore]
      simp [NameMap.alter]
    · push Not at hp
      have hnone : ¬∃ k, p.Fills n k := fun ⟨k, h⟩ => hp k (Path.fills_iff.1 h)
      simp only [hnone, or_false]
      rw [ofPaths_concat_of_ne hp, ← ih]
      split
      · rfl
      · next m k hm =>
        have hne : m ≠ n := fun h => hp k (h ▸ hm)
        simp [NameMap.alter, hne]

@[simp] lemma artifact?_ofPaths (s : SectionAddress) (n : String) (paths : List Path)
    (k : Upload.Slot) : (Upload.ofPaths s n paths).artifact? k = (lastFor n k paths).map .mk := by
  cases k with
  | file => rfl
  | signature => rfl

/-- The uploads are determined by the last paths for their slots. -/
lemma groupFiles_congr {paths' : List Path}
    (h : ∀ n k, lastFor n k paths' = lastFor n k paths) :
    groupFiles s paths' = groupFiles s paths := by
  have hbelongs : ∀ n (l : List Path),
      (∃ p ∈ l, ∃ k, p.Fills n k) ↔ ∃ k, lastFor n k l ≠ none := by
    intro n l
    simp only [ne_eq, lastFor_eq_none_iff, not_forall, not_not, exists_prop]
    exact ⟨fun ⟨p, hp, k, hk⟩ => ⟨k, p, hp, hk⟩, fun ⟨k, p, hp, hk⟩ => ⟨p, hp, k, hk⟩⟩
  refine NameMap.ext fun n => ?_
  have hsame : Upload.ofPaths s n paths' = Upload.ofPaths s n paths := by
    rw [Upload.ofPaths, Upload.ofPaths, h, h]
  rw [get?_groupFiles, get?_groupFiles, hsame]
  refine if_congr ?_ rfl rfl
  rw [hbelongs, hbelongs]
  simp only [h]

/-! ### Paths with names of their own -/

/-- No two paths of the list have the same file name. -/
def NamesApart (paths : List Path) : Prop := (paths.filterMap Path.name?).Nodup

instance : Decidable (NamesApart paths) := inferInstanceAs (Decidable (List.Nodup _))

lemma NamesApart.eq (h : NamesApart paths) {q : Path} (hp : p ∈ paths) (hq : q ∈ paths) {f : String}
    (hpf : p.name? = some f) (hqf : q.name? = some f) : p = q := by
  have hpair := List.pairwise_filterMap.1 h
  have hsymm : Std.Symm fun p q : Path =>
      ∀ f, p.name? = some f → ∀ g, q.name? = some g → f ≠ g :=
    ⟨fun _ _ hne f hf g hg => (hne g hg f hf).symm⟩
  by_contra hne
  exact hpair.forall hp hq hne f hpf f hqf rfl

lemma Path.exists_name_of_fills (n : String) (k : Upload.Slot) :
    ∃ f, ∀ p : Path, p.Fills n k → p.name? = some f := by
  cases k with
  | file => exact ⟨n, fun p hp => hp.1⟩
  | signature => exact ⟨n ++ ".sig", fun p hp => hp.2⟩

lemma mem_of_lastFor (h : lastFor n k paths = some p) : p ∈ paths ∧ p.Fills n k := by
  simpa using List.mem_of_getLast? h

/-- Each slot has the only path that belongs there. -/
lemma NamesApart.lastFor_eq_some_iff (h : NamesApart paths) :
    lastFor n k paths = some p ↔ p ∈ paths ∧ p.Fills n k := by
  refine ⟨mem_of_lastFor, fun ⟨hmem, hp⟩ => ?_⟩
  cases hlast : lastFor n k paths with
  | none => exact absurd hp (lastFor_eq_none_iff.1 hlast p hmem)
  | some q =>
    obtain ⟨hq, hqfills⟩ := mem_of_lastFor hlast
    obtain ⟨f, hf⟩ := Path.exists_name_of_fills n k
    rw [h.eq hq hmem (hf q hqfills) (hf p hp)]

lemma NamesApart.lastFor_perm (h : NamesApart paths) {paths' : List Path}
    (hperm : paths'.Perm paths) (n : String) (k : Upload.Slot) :
    lastFor n k paths' = lastFor n k paths := by
  have h' : NamesApart paths' := (hperm.filterMap _).nodup_iff.2 h
  ext p
  rw [h'.lastFor_eq_some_iff, h.lastFor_eq_some_iff, hperm.mem_iff]

lemma lastFor_filter (n : String) (k : Upload.Slot) (paths : List Path) :
    lastFor n k (paths.filter fun p => p.name?.isSome) = lastFor n k paths := by
  unfold lastFor
  rw [List.filter_filter]
  congr 1
  refine List.filter_congr fun p _ => ?_
  obtain ⟨f, hf⟩ := Path.exists_name_of_fills n k
  by_cases hp : p.Fills n k
  · simp [hp, hf p hp]
  · simp [hp]

/-- A package has an upload exactly if a path belongs to it; the upload has the name of the package
and the given section, and of the paths for each slot the last one; paths without a file name do
nothing.  If no two file names are the same, the order of the paths does not matter, and every path
with a file name is in one slot of one upload. -/
theorem grouping_exact (s : SectionAddress) (paths : List Path) :
    (∀ n, ((groupFiles s paths).get? n).isSome ↔ ∃ p ∈ paths, ∃ k, p.Fills n k) ∧
    (∀ n u, (groupFiles s paths).get? n = some u →
      u.name = n ∧ u.target = s ∧ ∀ k, u.artifact? k = (lastFor n k paths).map .mk) ∧
    groupFiles s (paths.filter fun p => p.name?.isSome) = groupFiles s paths ∧
    (NamesApart paths →
      (∀ paths', paths'.Perm paths → groupFiles s paths' = groupFiles s paths) ∧
      ∀ p ∈ paths, p.name?.isSome → ∃! slot : String × Upload.Slot,
        ∃ u, (groupFiles s paths).get? slot.1 = some u ∧ u.artifact? slot.2 = some ⟨p⟩) := by
  have hget : ∀ n u, (groupFiles s paths).get? n = some u ↔
      (∃ p ∈ paths, ∃ k, p.Fills n k) ∧ u = Upload.ofPaths s n paths := by
    intro n u
    rw [get?_groupFiles, Option.ite_none_right_eq_some, Option.some.injEq, eq_comm]
  refine ⟨fun n => ?_, fun n u hu => ?_, groupFiles_congr fun n k => lastFor_filter n k paths,
    fun hapart => ⟨fun paths' hperm => groupFiles_congr (hapart.lastFor_perm hperm), ?_⟩⟩
  · rw [Option.isSome_iff_exists]
    simp [hget]
  · obtain ⟨-, rfl⟩ := (hget n u).1 hu
    exact ⟨rfl, rfl, artifact?_ofPaths s n paths⟩
  · intro p hp hname
    obtain ⟨⟨n, k⟩, hslot⟩ : ∃ slot, p.slot? = some slot := by
      rw [← Option.isSome_iff_exists, Path.slot?_isSome]
      exact hname
    have hk := Path.fills_iff.2 hslot
    refine ⟨(n, k), ⟨_, (hget n _).2 ⟨⟨p, hp, k, hk⟩, rfl⟩, ?_⟩, ?_⟩
    · rw [artifact?_ofPaths, hapart.lastFor_eq_some_iff.2 ⟨hp, hk⟩]
      rfl
    · rintro ⟨n', k'⟩ ⟨u, hu, hartifact⟩
      obtain ⟨-, rfl⟩ := (hget n' u).1 hu
      rw [artifact?_ofPaths, Option.map_eq_some_iff] at hartifact
      obtain ⟨q, hlast, hq⟩ := hartifact
      cases hq
      have hfills := Path.fills_iff.1 (mem_of_lastFor hlast).2
      exact Option.some.inj (hfills.symm.trans hslot)

/-- The signature of a package ahead of it, and a package called `.sig` with a signature. -/
theorem grouping_exact_four :
    let s : SectionAddress := ⟨"b", "r", "x"⟩
    let paths := ["in/foo.sig", "out/foo", ".sig", "out/.sig.sig"].map Path.ofString
    NamesApart paths ∧ groupFiles s paths.reverse = groupFiles s paths ∧
      ∃! slot : String × Upload.Slot, ∃ u, (groupFiles s paths).get? slot.1 = some u ∧
        u.artifact? slot.2 = some ⟨.ofString "out/.sig.sig"⟩ := by
  intro s paths
  have hapart : NamesApart paths := by decide +kernel
  obtain ⟨-, -, -, horder⟩ := grouping_exact s paths
  obtain ⟨hperm, hslots⟩ := horder hapart
  exact ⟨hapart, hperm _ paths.reverse_perm, hslots _ (by simp [paths]) (by decide +kernel)⟩

end PackageStaging
