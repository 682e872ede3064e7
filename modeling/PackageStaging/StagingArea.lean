/-
# The staging area

The pending commits, one for each section, in the order in which the sections were first staged.
A commit without operations is never kept: the section goes with its last operation.
`StagingArea.ofEntries` accepts the lists that staging can produce.
-/
import PackageStaging.Commit

namespace PackageStaging

/-- A pending commit and the section that it is for. -/
structure StagedCommit where
  /-- The key of the section. -/
  key : SectionKey
  /-- The pending operations. -/
  commit : Commit
deriving DecidableEq

/-- The section that the commit is for. -/
def StagedCommit.origin (e : StagedCommit) : SectionAddress := e.key.address

/-- The pending commits, in the order in which their sections were first staged. -/
structure StagingArea where
  entries : List StagedCommit
deriving DecidableEq

namespace StagingArea

/-- The area without commits. -/
def empty : StagingArea := ⟨[]⟩

instance : Inhabited StagingArea := ⟨empty⟩

/-- The number of sections with a pending commit. -/
def size (a : StagingArea) : Nat := a.entries.length

/-- Whether nothing is staged. -/
def isEmpty (a : StagingArea) : Bool := a.entries.isEmpty

/-- The commit under a key. -/
def find? (a : StagingArea) (k : SectionKey) : Option Commit :=
  (a.entries.find? fun e => e.key = k).map (·.commit)

/-- The commit of a section; an incomplete section has none. -/
def get? (a : StagingArea) (s : SectionAddress) : Option Commit := s.key?.bind a.find?

/-- The area without the commit under a key. -/
def eraseKey (a : StagingArea) (k : SectionKey) : StagingArea :=
  ⟨a.entries.filter fun e => e.key ≠ k⟩

/-- The entries with the first one under the key given another commit. -/
def replaceFirst (k : SectionKey) (c : Commit) : List StagedCommit → List StagedCommit
  | [] => []
  | e :: es => if e.key = k then ⟨e.key, c⟩ :: es else e :: replaceFirst k c es

/-- The area with a commit under a key: in place of the one that is there, else at the end.  A
commit without operations removes what is there. -/
def put (a : StagingArea) (k : SectionKey) (c : Commit) : StagingArea :=
  if c.isEmpty then a.eraseKey k
  else if a.entries.any fun e => e.key = k then ⟨replaceFirst k c a.entries⟩
  else ⟨a.entries ++ [⟨k, c⟩]⟩

/-- The key of a section, which has to be complete. -/
def requireKey (s : SectionAddress) : Except Error SectionKey :=
  match s.key? with
  | some k => .ok k
  | none => .error (.incompleteSection s.text)

/-- Sets the commit of a section. -/
def setCommit (a : StagingArea) (s : SectionAddress) (c : Commit) : Except Error StagingArea := do
  let k ← requireKey s
  return a.put k c

/-- Drops the commit of a section, if there is one. -/
def dropCommit (a : StagingArea) (s : SectionAddress) : StagingArea :=
  match s.key? with
  | some k => a.eraseKey k
  | none => a

/-- Merges a patch into the commit of a section. -/
def stage (a : StagingArea) (s : SectionAddress) (p : Patch) : Except Error StagingArea := do
  let merged ← ((a.get? s).getD .empty).merge p
  a.setCommit s merged

/-- Takes one package out of the commit of a section. -/
def unstage (a : StagingArea) (s : SectionAddress) (name : String) : Except Error StagingArea :=
  match (a.get? s).bind fun c => c.remove? name with
  | some (_, c) => a.setCommit s c
  | none => .error (.notStagedIn name s)

/-- Checks the entries of a list in order; `seen` are the keys of those before. -/
def checkEntries (seen : List SectionKey) : List StagedCommit → Except Error Unit
  | [] => .ok ()
  | e :: es =>
    if e.origin.key? ≠ some e.key then .error (.incompleteSection e.key.text)
    else if e.key ∈ seen then .error (.stagedTwice e.key)
    else if e.commit.isEmpty then .error (.emptyCommit e.key)
    else match e.commit.conflict? with
      | some n => .error (.conflictingActions n)
      | none => checkEntries (e.key :: seen) es

/-- The staging area with these entries, if staging can produce it. -/
def ofEntries (es : List StagedCommit) : Except Error StagingArea := do
  checkEntries [] es
  return ⟨es⟩

/-- Whether both hold the same commits in the same order, files being compared by the steps of
their paths. -/
def agrees (a b : StagingArea) : Bool :=
  a.entries.length = b.entries.length
    && (a.entries.zip b.entries).all fun e => e.1.key = e.2.key && e.1.commit.agrees e.2.commit

end StagingArea

end PackageStaging
