/-
# Uploads that were grouped

Grouping puts each file in its place: under the name of its package, as the package file or as the
signature by the ending of its own name.  So every upload that comes out is for the section that was
given, has one of the two files at least, and each of them has the name that belongs there
(`allGrouped_groupFiles`).
-/
import Mathlib.Tactic.Lemma
import Mathlib.Tactic.SplitIfs
import PackageStaging.Grouping

namespace PackageStaging

/-! ### Names of signatures -/

/-- A signature is called after its package, with an ending. -/
lemma signedName?_eq_some_iff {f n : String} :
    signedName? f = some n ↔ n ≠ "" ∧ f = n ++ ".sig" := by
  have hending : (".sig" : String).toList = signatureEnding := rfl
  have hname : ∀ cs : List Char, cs ≠ [] ↔ String.ofList cs ≠ "" := by
    intro cs
    rw [ne_eq, ne_eq, ← String.toList_eq_nil_iff, String.toList_ofList]
  unfold signedName?
  dsimp only
  constructor
  · intro h
    split_ifs at h with hstem
    obtain ⟨hne, hsplit⟩ := hstem
    rw [← Option.some.inj h]
    refine ⟨(hname _).1 hne, ?_⟩
    rw [← String.toList_inj, String.toList_append, String.toList_ofList, hending]
    exact hsplit
  · rintro ⟨hne, rfl⟩
    have hstem : (n ++ ".sig").toList.take ((n ++ ".sig").toList.length - signatureEnding.length) =
        n.toList := by
      rw [String.toList_append, hending, List.length_append, Nat.add_sub_cancel, List.take_left]
    rw [hstem, if_pos ⟨fun h => hne (String.toList_eq_nil_iff.1 h), by
      rw [String.toList_append, hending]⟩, String.ofList_toList]

/-! ### Uploads and their files -/

namespace Upload

/-- The upload is one of this name into this section, and its files are called as they have to
be. -/
structure Belongs (s : SectionAddress) (n : String) (u : Upload) : Prop where
  name : u.name = n
  target : u.target = s
  file : ∀ f, u.file = some f → f.fileName = n
  signature : ∀ f, u.signature = some f → f.fileName = n ++ ".sig"

/-- Besides, one of its files is there at least. -/
structure Grouped (s : SectionAddress) (n : String) (u : Upload) : Prop extends Belongs s n u where
  present : u.file.isSome ∨ u.signature.isSome

variable {s : SectionAddress} {n : String} {u : Upload} {p : Path}

lemma belongs_bare (s : SectionAddress) (n : String) : (bare n s).Belongs s n :=
  ⟨rfl, rfl, fun _ h => (nomatch h), fun _ h => (nomatch h)⟩

lemma Belongs.withFile (h : u.Belongs s n) (hp : p.fileName = n) :
    Grouped s n { u with file := some ⟨p⟩ } where
  name := h.name
  target := h.target
  file := by
    rintro f hf
    rw [← Option.some.inj hf]
    exact hp
  signature := h.signature
  present := .inl rfl

lemma Belongs.withSignature (h : u.Belongs s n) (hp : p.fileName = n ++ ".sig") :
    Grouped s n { u with signature := some ⟨p⟩ } where
  name := h.name
  target := h.target
  file := h.file
  signature := by
    rintro f hf
    rw [← Option.some.inj hf]
    exact hp
  present := .inr rfl

end Upload

/-! ### Grouping -/

/-- All uploads are grouped. -/
def AllGrouped (s : SectionAddress) (m : NameMap Upload) : Prop :=
  ∀ n u, m.get? n = some u → u.Grouped s n

variable {s : SectionAddress} {m : NameMap Upload} {n : String} {u : Upload}

/-- An upload that is not there yet begins without files. -/
lemma AllGrouped.belongs (hm : AllGrouped s m) (n : String) :
    ((m.get? n).getD (.bare n s)).Belongs s n := by
  cases hn : m.get? n with
  | none => exact Upload.belongs_bare s n
  | some u => exact (hm n u hn).toBelongs

lemma AllGrouped.insert (hm : AllGrouped s m) (hu : u.Grouped s n) :
    AllGrouped s (m.insert n u) := by
  intro k v hv
  rw [NameMap.get?_insert] at hv
  split_ifs at hv with hk
  · rw [← hk, ← Option.some.inj hv]
    exact hu
  · exact hm k v hv

/-- One more file leaves the uploads grouped. -/
lemma AllGrouped.groupFile (hm : AllGrouped s m) (p : Path) : AllGrouped s (groupFile s m p) := by
  unfold PackageStaging.groupFile
  dsimp only
  split_ifs
  · exact hm
  · split
    · next name hname =>
      exact hm.insert ((hm.belongs name).withSignature (signedName?_eq_some_iff.1 hname).2)
    · exact hm.insert ((hm.belongs _).withFile rfl)

/-- Files that are grouped make grouped uploads. -/
theorem allGrouped_groupFiles (s : SectionAddress) (paths : List Path) :
    AllGrouped s (groupFiles s paths) := by
  -- the invariant of the loop over the files is that the uploads so far are grouped
  have hfold : ∀ m, AllGrouped s m → AllGrouped s (paths.foldl (groupFile s) m) := by
    induction paths with
    | nil => exact fun m hm => hm
    | cons p ps ih => exact fun m hm => ih _ (hm.groupFile p)
  exact hfold .empty fun n u h => nomatch h

end PackageStaging
