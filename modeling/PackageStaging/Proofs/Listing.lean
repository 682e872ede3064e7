/-
# The tree of a listing

A listing is read in two ways: as a tree of branches, repositories and architectures, and as a flat
list in which a section is looked up.  Both agree (`tree_agrees`): a section is in the listing
exactly if all three of its fields are met on the way down the tree, and on a walk through the whole
tree each complete section of the listing is met once.  What is not complete adds branches and
repositories to the tree, but no section.
-/
import Mathlib.Data.List.Nodup
import Mathlib.Data.List.Sort
import Mathlib.Data.String.Basic
import PackageStaging.CommandLine.Remote
import PackageStaging.Proofs.Staging.Operations

namespace PackageStaging.Listing

variable {listing listing' : List SectionAddress} {s : SectionAddress} {names names' : List String}
  {n branch repository : String}

/-! ### Levels of the tree -/

/-- The names ascend, and none of them is empty. -/
def Ascends (names : List String) : Prop := names.Pairwise (· < ·) ∧ "" ∉ names

lemma Ascends.nodup (h : Ascends names) : names.Nodup :=
  h.1.imp fun hlt heq => absurd (heq ▸ hlt) (String.lt_irrefl _)

@[simp] lemma mem_distinct : n ∈ distinct names ↔ n ≠ "" ∧ n ∈ names := by
  rw [distinct, NameMap.mem_names_iff, NameSet.ofNames, NameMap.get?_ofList_const]
  simp [and_comm]

lemma ascends_distinct (names : List String) : Ascends (distinct names) :=
  ⟨List.pairwise_map.2 (NameSet.ofNames _).ascending, by simp⟩

/-- Neither the order of the names nor their number matters. -/
lemma distinct_congr (h : ∀ n, n ∈ names ↔ n ∈ names') : distinct names = distinct names' := by
  refine (ascends_distinct names).1.eq_of_mem_iff (ascends_distinct names').1 fun n => ?_
  rw [mem_distinct, mem_distinct, h]

lemma mem_branches : n ∈ branches listing ↔ n ≠ "" ∧ ∃ s ∈ listing, s.branch = n := by
  simp [branches]

lemma mem_repositories : n ∈ repositories listing branch ↔
    n ≠ "" ∧ ∃ s ∈ listing, s.branch = branch ∧ s.repository = n := by
  simp [repositories, and_assoc]

lemma mem_architectures :
    n ∈ architectures listing branch repository ↔ n ≠ "" ∧ ⟨branch, repository, n⟩ ∈ listing := by
  simp only [architectures, mem_distinct, List.mem_map, List.mem_filter, decide_eq_true_eq]
  refine and_congr_right fun _ => ⟨?_, fun h => ⟨_, ⟨h, rfl, rfl⟩, rfl⟩⟩
  rintro ⟨s, ⟨hs, rfl, rfl⟩, rfl⟩
  exact hs

/-! ### The way down -/

/-- The fields of a section are met one below the other. -/
def OnTree (listing : List SectionAddress) (s : SectionAddress) : Prop :=
  s.branch ∈ branches listing ∧ s.repository ∈ repositories listing s.branch ∧
    s.architecture ∈ architectures listing s.branch s.repository

lemma onTree_iff : OnTree listing s ↔ s.isComplete = true ∧ s ∈ listing := by
  rw [OnTree, mem_branches, mem_repositories, mem_architectures, SectionAddress.isComplete]
  simp only [Bool.and_eq_true, decide_eq_true_eq]
  constructor
  · rintro ⟨⟨hb, -⟩, ⟨hr, -⟩, ha, hs⟩
    exact ⟨⟨⟨hb, hr⟩, ha⟩, hs⟩
  · rintro ⟨⟨⟨hb, hr⟩, ha⟩, hs⟩
    exact ⟨⟨hb, s, hs, rfl⟩, ⟨hr, s, hs, rfl, rfl⟩, ha, hs⟩

lemma requireSection_eq_ok_iff :
    requireSection listing s = .ok () ↔ s.isComplete = true ∧ s ∈ listing := by
  unfold requireSection
  split_ifs with hc hs
  · simp_all
  · simp_all
  · simp_all

/-! ### The walk -/

/-- A branch of the tree, and its repositories with their architectures. -/
structure Branch where
  name : String
  repositories : List (String × List String)

namespace Branch

/-- The sections at the ends of a branch. -/
def sections (b : Branch) : List SectionAddress :=
  b.repositories.flatMap fun r => r.2.map fun a => ⟨b.name, r.1, a⟩

/-- The lines that show a branch. -/
def lines (b : Branch) : List String :=
  b.name :: b.repositories.map fun r => "  " ++ r.1 ++ " " ++ " ".intercalate r.2

end Branch

/-- The tree of a listing. -/
def tree (listing : List SectionAddress) : List Branch :=
  (branches listing).map fun b =>
    ⟨b, (repositories listing b).map fun r => (r, architectures listing b r)⟩

/-- What is shown of a listing is its tree. -/
lemma listingLines_eq (listing : List SectionAddress) :
    CommandLine.listingLines listing = (tree listing).flatMap Branch.lines := by
  simp [CommandLine.listingLines, tree, List.flatMap_map, Branch.lines, Function.comp_def]

/-- The sections that are met on a walk through the tree. -/
def walk (listing : List SectionAddress) : List SectionAddress :=
  (tree listing).flatMap Branch.sections

lemma walk_eq (listing : List SectionAddress) :
    walk listing = (branches listing).flatMap fun b => (repositories listing b).flatMap fun r =>
      (architectures listing b r).map fun a => ⟨b, r, a⟩ := by
  simp [walk, tree, List.flatMap_map, Branch.sections]

lemma mem_walk : s ∈ walk listing ↔ OnTree listing s := by
  simp only [walk_eq, List.mem_flatMap, List.mem_map]
  constructor
  · rintro ⟨b, hb, r, hr, a, ha, rfl⟩
    exact ⟨hb, hr, ha⟩
  · rintro ⟨hb, hr, ha⟩
    exact ⟨_, hb, _, hr, _, ha, rfl⟩

/-- A walk meets nothing twice below names that are all different, if what is met tells the name it
is below. -/
lemma nodup_below {below : String → List SectionAddress} (field : SectionAddress → String)
    (hnames : names.Nodup) (hfield : ∀ n, ∀ s ∈ below n, field s = n)
    (hbelow : ∀ n, (below n).Nodup) : (names.flatMap below).Nodup := by
  rw [List.nodup_flatMap]
  refine ⟨fun n _ => hbelow n, hnames.imp fun {n m} hne s hn hm => hne ?_⟩
  rw [← hfield n s hn, hfield m s hm]

lemma nodup_walk (listing : List SectionAddress) : (walk listing).Nodup := by
  rw [walk_eq]
  refine nodup_below (·.branch) (ascends_distinct _).nodup ?_ fun b => ?_
  · intro b s hs
    obtain ⟨r, -, hs⟩ := List.mem_flatMap.1 hs
    obtain ⟨a, -, rfl⟩ := List.mem_map.1 hs
    rfl
  refine nodup_below (·.repository) (ascends_distinct _).nodup ?_ fun r => ?_
  · intro r s hs
    obtain ⟨a, -, rfl⟩ := List.mem_map.1 hs
    rfl
  · refine (ascends_distinct _).nodup.map ?_
    intro a a' heq
    exact congrArg SectionAddress.architecture heq

/-- The tree and the look-up agree on every section; every level of the tree ascends, holds no empty
name and depends only on which sections are listed; what is shown is the tree, and the walk through
it meets every complete section of the listing once and nothing else; and a section that is not
found is told apart from one that is not complete. -/
theorem tree_agrees (listing : List SectionAddress) :
    (∀ s, requireSection listing s = .ok () ↔
      s.branch ∈ branches listing ∧ s.repository ∈ repositories listing s.branch ∧
        s.architecture ∈ architectures listing s.branch s.repository) ∧
    (Ascends (branches listing) ∧ (∀ b, Ascends (repositories listing b)) ∧
      ∀ b r, Ascends (architectures listing b r)) ∧
    (∀ listing', (∀ s, s ∈ listing' ↔ s ∈ listing) →
      branches listing' = branches listing ∧
      (∀ b, repositories listing' b = repositories listing b) ∧
      ∀ b r, architectures listing' b r = architectures listing b r) ∧
    (CommandLine.listingLines listing = (tree listing).flatMap Branch.lines ∧
      ∀ s, (walk listing).count s = if s.isComplete ∧ s ∈ listing then 1 else 0) ∧
    ∀ s e, requireSection listing s = .error e →
      e = if s.isComplete then .sectionNotFound s.text else .incompleteSection s.text := by
  refine ⟨fun s => ?_, ⟨ascends_distinct _, fun b => ascends_distinct _, fun b r =>
    ascends_distinct _⟩, fun listing' hsame => ⟨?_, fun b => ?_, fun b r => ?_⟩,
    ⟨listingLines_eq listing, fun s => ?_⟩, fun s e he => ?_⟩
  · exact requireSection_eq_ok_iff.trans onTree_iff.symm
  · exact distinct_congr fun n => by simp [hsame]
  · exact distinct_congr fun n => by simp [hsame]
  · exact distinct_congr fun n => by simp [hsame]
  · rw [(nodup_walk listing).count, if_congr (mem_walk.trans onTree_iff) rfl rfl]
  · unfold requireSection at he
    split_ifs at he with hincomplete hs
    · cases he
      simp_all
    · cases he
      simp_all

/-- A branch without a complete section, and a listing that is given twice. -/
theorem tree_agrees_twice :
    let listing : List SectionAddress := [⟨"b", "r", "x"⟩, ⟨"b", "r", ""⟩, ⟨"a", "", "x"⟩]
    let twice := listing ++ listing.reverse
    (∀ s, s ∈ twice ↔ s ∈ listing) ∧ branches twice = branches listing ∧
      (walk listing).count ⟨"b", "r", "x"⟩ = 1 ∧
      requireSection listing ⟨"a", "", "x"⟩ = .error (.incompleteSection "a//x") ∧
      Error.incompleteSection "a//x" =
        if (⟨"a", "", "x"⟩ : SectionAddress).isComplete then .sectionNotFound "a//x"
        else .incompleteSection "a//x" := by
  intro listing twice
  have hsame : ∀ s, s ∈ twice ↔ s ∈ listing := by simp [twice]
  have herror : requireSection listing ⟨"a", "", "x"⟩ = .error (.incompleteSection "a//x") := by
    decide +kernel
  obtain ⟨-, -, hlevels, ⟨-, hcount⟩, hfails⟩ := tree_agrees listing
  exact ⟨hsame, (hlevels twice hsame).1, hcount _, herror, hfails _ _ herror⟩

end PackageStaging.Listing
