/-
# Sections of a package repository

A section is addressed by a branch, a repository and an architecture.  An empty field means
"not set"; only a complete section has a key.  The key is the three fields joined by `/`, and
`SectionKey.address` cuts it again: `address_key` says that this gives the section back as long
as no field holds a `/`.
-/
import PackageStaging.Text.Fields

namespace PackageStaging

/-- The address of a section; an empty field is not set. -/
structure SectionAddress where
  /-- The branch, for instance `stable`. -/
  branch : String
  /-- The repository, for instance `core`. -/
  repository : String
  /-- The architecture, for instance `x86_64`. -/
  architecture : String
deriving DecidableEq, Repr, Inhabited

/-- The key under which commits of a complete section are staged. -/
structure SectionKey where
  /-- The key as text: branch, repository and architecture joined by `/`. -/
  text : String
deriving DecidableEq, Repr, Inhabited

namespace SectionAddress

/-- The address without any field set. -/
def blank : SectionAddress := ⟨"", "", ""⟩

/-- Whether all three fields are set. -/
def isComplete (s : SectionAddress) : Bool :=
  s.branch ≠ "" && s.repository ≠ "" && s.architecture ≠ ""

/-- The three fields joined by `/`. -/
def text (s : SectionAddress) : String :=
  s.branch ++ "/" ++ s.repository ++ "/" ++ s.architecture

instance : ToString SectionAddress := ⟨text⟩

/-- Cuts a text at `/` into the three fields; missing ones are empty, further ones are
dropped. -/
def ofString (s : String) : SectionAddress :=
  match Text.fields '/' s.toList with
  | b :: r :: a :: _ => ⟨.ofList b, .ofList r, .ofList a⟩
  | [b, r] => ⟨.ofList b, .ofList r, ""⟩
  | [b] => ⟨.ofList b, "", ""⟩
  | [] => blank

/-- The key of a complete section. -/
def key? (s : SectionAddress) : Option SectionKey :=
  if s.isComplete then some ⟨s.text⟩ else none

/-- The root of the tree that sections form. -/
def treeRoot : String := "root"

/-- The path of the section in the tree: root, branch, repository, architecture. -/
def toTreePath (s : SectionAddress) : List String :=
  [treeRoot, s.branch, s.repository, s.architecture]

/-- The section that a path of the tree leads to or through. -/
def ofTreePath? : List String → Option SectionAddress
  | root :: b :: r :: a :: _ => if root = treeRoot then some ⟨b, r, a⟩ else none
  | _ => none

/-- Field by field, each by code point. -/
instance : Ord SectionAddress where
  compare s t :=
    (compare s.branch t.branch).then <|
      (compare s.repository t.repository).then (compare s.architecture t.architecture)

/-- The sections in ascending order. -/
def sort (l : List SectionAddress) : List SectionAddress :=
  l.mergeSort fun s t => (compare s t).isLE

theorem toList_text (s : SectionAddress) :
    s.text.toList =
      Text.joined '/' [s.branch.toList, s.repository.toList, s.architecture.toList] := by
  simp [text, Text.joined, String.toList_append]

/-- The text of a section whose fields hold no `/` is cut into these fields. -/
theorem ofString_text (s : SectionAddress) (hb : '/' ∉ s.branch.toList)
    (hr : '/' ∉ s.repository.toList) (ha : '/' ∉ s.architecture.toList) :
    ofString s.text = s := by
  have h : Text.fields '/' s.text.toList =
      [s.branch.toList, s.repository.toList, s.architecture.toList] := by
    rw [toList_text]
    refine Text.fields_joined _ _ (by simp) fun part hp => ?_
    simp only [List.mem_cons, List.not_mem_nil, or_false] at hp
    rcases hp with rfl | rfl | rfl <;> assumption
  simp [ofString, h]

end SectionAddress

namespace SectionKey

instance : ToString SectionKey := ⟨text⟩

/-- By code point. -/
instance : Ord SectionKey where
  compare k l := compare k.text l.text

/-- The keys in ascending order. -/
def sort (l : List SectionKey) : List SectionKey := l.mergeSort fun k m => (compare k m).isLE

/-- The section that the key was made from. -/
def address (k : SectionKey) : SectionAddress := .ofString k.text

end SectionKey

/-- The key of a section whose fields hold no `/` leads back to the section. -/
theorem SectionAddress.address_key {s : SectionAddress} {k : SectionKey} (hk : s.key? = some k)
    (hb : '/' ∉ s.branch.toList) (hr : '/' ∉ s.repository.toList)
    (ha : '/' ∉ s.architecture.toList) : k.address = s := by
  simp only [key?] at hk
  split at hk
  · cases hk
    exact ofString_text s hb hr ha
  · cases hk

end PackageStaging
