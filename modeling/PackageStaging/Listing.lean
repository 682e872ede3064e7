/-
# Listings of sections

The server gives its sections as one flat list.  The functions below read it as a tree of
branches, repositories and architectures, and check a section against it.
-/
import PackageStaging.Error
import PackageStaging.NameMap

namespace PackageStaging.Listing

/-- The names in a list that are not empty, each once, in ascending order. -/
def distinct (names : List String) : List String :=
  (NameSet.ofNames (names.filter fun n => n ≠ "")).names

/-- The branches. -/
def branches (listing : List SectionAddress) : List String :=
  distinct (listing.map (·.branch))

/-- The repositories of a branch. -/
def repositories (listing : List SectionAddress) (branch : String) : List String :=
  distinct ((listing.filter fun s => s.branch = branch).map (·.repository))

/-- The architectures of a repository of a branch. -/
def architectures (listing : List SectionAddress) (branch repository : String) : List String :=
  distinct ((listing.filter fun s => s.branch = branch ∧ s.repository = repository).map
    (·.architecture))

/-- Fails unless the section is complete and in the listing. -/
def requireSection (listing : List SectionAddress) (s : SectionAddress) : Except Error Unit :=
  if !s.isComplete then .error (.incompleteSection s.text)
  else if s ∈ listing then .ok ()
  else .error (.sectionNotFound s.text)

end PackageStaging.Listing
