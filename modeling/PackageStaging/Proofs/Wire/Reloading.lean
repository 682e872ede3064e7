/-
# Whether a staging area is loaded again

Edits keep a staging area such that it is loaded again after it was saved, with one exception:
a commit that is set outright is not looked at, and when it has a name in two buckets, what is saved
is refused when it is loaded (`reloading`).
-/
import PackageStaging.Proofs.Wire.Persistence

namespace PackageStaging.Wire

open StagingArea (Edit ofEntries empty)

variable {a : StagingArea}

/-- The name is in two buckets of a commit of the area. -/
def InTwoBuckets (a : StagingArea) (n : String) : Prop :=
  ∃ x ∈ a.entries, ∃ act act', act ≠ act' ∧ x.commit.holds act n = true ∧
    x.commit.holds act' n = true

/-- The fault of a document in which a name is in two buckets of a commit. -/
def twiceStaged (n : String) : Json.Fault :=
  ⟨.content (.refused (Error.conflictingActions n).message), none⟩

/-- A list of entries that is orderly can only be refused for a name that is in two buckets. -/
lemma ofEntries_of_orderly (h : a.Orderly) (hsole : ¬a.Sole) :
    ∃ n, InTwoBuckets a n ∧ ofEntries a.entries = .error (.conflictingActions n) := by
  cases hentries : ofEntries a.entries with
  | ok b =>
    obtain ⟨hwf, -⟩ := StagingArea.ofEntries_eq_ok_iff.1 hentries
    exact absurd hwf.sole hsole
  | error err =>
    obtain ⟨before, x, rest, hsplit, -, rule, hbroken, -, hreports⟩ :=
      StagingArea.ofEntries_eq_error_iff.1 hentries
    have hx : x ∈ a.entries := by simp [hsplit]
    -- the other rules are obeyed, as the area is orderly
    cases rule with
    | canonicalKey => exact absurd (SectionKey.canonical_iff.2 (h.keys x hx)) hbroken
    | newKey =>
      obtain ⟨d, hd, hkey⟩ := hbroken
      have hdistinct := h.distinct
      rw [hsplit, List.map_append, List.nodup_append] at hdistinct
      exact absurd hkey
        (hdistinct.2.2 _ (List.mem_map_of_mem hd) _ (List.mem_map_of_mem (List.mem_cons_self ..)))
    | operations =>
      have hempty := StagingArea.broken_operations_iff.1 hbroken
      rw [h.filled x hx] at hempty
      exact nomatch hempty
    | oneBucket =>
      obtain ⟨p, n, q, hnames, -, hmem, rfl⟩ := hreports
      exact ⟨n, ⟨x, hx, Commit.two_buckets_of_repeated hnames hmem⟩, rfl⟩

/-- Whatever edits are made for sections without `/`, keys stay canonical and distinct and commits
filled.  Each name stays in one bucket all along exactly if every commit that is set outright has
each name in one bucket.  If the paths of the files are text, the area can be saved; it is then
loaded again if each name is in one bucket, else refused for a name that is in two. -/
theorem reloading (es : List Edit) (hes : ∀ e ∈ es, e.SlashFree) :
    (empty.edited es).Orderly ∧
    ((∀ before, before <+: es → (empty.edited before).Sole) ↔ ∀ e ∈ es, e.Sole) ∧
    ((empty.edited es).TextPaths →
      ((empty.edited es).Sole → ReadsBack (empty.edited es)) ∧
      (¬(empty.edited es).Sole → ∃ n, InTwoBuckets (empty.edited es) n ∧
        ReadsAs (empty.edited es) (.error (twiceStaged n)))) := by
  have horderly := StagingArea.orderly_edited hes
  refine ⟨horderly, StagingArea.sole_edited_iff, fun htext => ⟨fun hsole => ?_, fun hsole => ?_⟩⟩
  · exact readsBack_iff.2 ⟨StagingArea.wellFormed_iff.2 ⟨horderly, hsole⟩, htext⟩
  · obtain ⟨n, htwo, hrefused⟩ := ofEntries_of_orderly horderly hsole
    have hread := readsAs htext
    rw [hrefused] at hread
    exact ⟨n, htwo, hread⟩

/-- A commit that is set outright, a patch over it, and a package taken out. -/
theorem reloading_three :
    let core : SectionAddress := ⟨"stable", "core", "x86_64"⟩
    let upload : Upload := ⟨"a", core, some ⟨.ofString "/p/\u00e9.pkg"⟩, none⟩
    let es : List Edit := [.setCommit core (.ofPatch (.add (.ofList [("a", upload)]))),
      .stage core (.delete ["b", "c"]), .unstage core "b"]
    (∀ e ∈ es, e.SlashFree) ∧ (∀ e ∈ es, e.Sole) ∧ (empty.edited es).size = 1 ∧
      ReadsBack (empty.edited es) := by
  intro core upload es
  have hcore : core.SlashFree := ⟨by decide, by decide, by decide⟩
  have hes : ∀ e ∈ es, e.SlashFree := by
    simp [es, Edit.SlashFree, Edit.origin?, hcore]
  have hset : (Commit.ofPatch (.add (.ofList [("a", upload)]))).Sole :=
    Commit.conflict?_eq_none.1 rfl
  have hsole : ∀ e ∈ es, e.Sole := by
    simp [es, Edit.Sole, hset]
  have hentries : (empty.edited es).entries = [⟨⟨"stable/core/x86_64"⟩,
      .ofPatch { Patch.delete ["c"] with toAdd := some (.ofList [("a", upload)]) }⟩] := by
    simp only [es, upload, core]
    decide +kernel
  have htext : (empty.edited es).TextPaths := by
    intro x hx y hy
    rw [hentries, List.mem_singleton] at hx
    rw [hx] at hy
    rw [List.mem_singleton.1 hy]
    refine ⟨fun f hf => ?_, fun f hf => nomatch hf⟩
    exact ⟨_, congrArg Artifact.path (Option.some.inj hf).symm⟩
  have hsize : (empty.edited es).size = 1 := by rw [StagingArea.size, hentries]; rfl
  obtain ⟨-, hall, hread⟩ := reloading es hes
  exact ⟨hes, hsole, hsize, (hread htext).1 (hall.2 hsole es (List.prefix_refl es))⟩

/-- A package that is both deleted and moved by a commit that is set outright: the area that is
saved is not loaded again. -/
theorem reloading_foo :
    let core : SectionAddress := ⟨"stable", "core", "x86_64"⟩
    let testing : SectionAddress := ⟨"testing", "core", "x86_64"⟩
    let e : Edit := .setCommit core
      (.ofPatch { Patch.delete ["foo"] with toMove := some (Patch.transfer ["foo"] testing) })
    e.SlashFree ∧ (empty.edited [e]).TextPaths ∧ InTwoBuckets (empty.edited [e]) "foo" ∧
      ReadsAs (empty.edited [e])
        (.error ⟨.content (.refused "commit contains duplicate package name: foo"), none⟩) := by
  intro core testing e
  have htext : (empty.edited [e]).TextPaths := by
    intro x hx y hy
    rw [List.mem_singleton.1 hx] at hy
    exact absurd hy List.not_mem_nil
  refine ⟨?_, htext, ⟨_, .head _, .delete, .move, by decide, rfl, rfl⟩, ?_⟩
  · intro s hs
    rw [← Option.some.inj hs]
    exact ⟨by decide, by decide, by decide⟩
  · have hread := readsAs htext
    have hrefused : ofEntries (empty.edited [e]).entries = .error (.conflictingActions "foo") := by
      simp only [e, core, testing]
      decide
    rw [hrefused] at hread
    exact hread

end PackageStaging.Wire
