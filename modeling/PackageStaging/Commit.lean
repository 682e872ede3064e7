/-
# Commits

A commit holds the pending operations of one section in four buckets: packages to add, to
delete, to copy and to move.  A package may be in one bucket only; `merge` puts a patch over a
commit and refuses a result in which a name is in two buckets.
-/
import PackageStaging.Error
import PackageStaging.NameMap

namespace PackageStaging

/-- What is to be done with a package. -/
inductive Action where
  | add
  | delete
  | copy
  | move
deriving DecidableEq, Repr

/-- The word for an action. -/
def Action.text : Action → String
  | .add => "add"
  | .delete => "delete"
  | .copy => "copy"
  | .move => "move"

instance : ToString Action := ⟨Action.text⟩

/-- The pending operations of one section. -/
structure Commit where
  /-- Packages to upload. -/
  toAdd : NameMap Upload
  /-- Packages to delete. -/
  toDelete : NameSet
  /-- Packages to copy, and where to. -/
  toCopy : NameMap SectionAddress
  /-- Packages to move, and where to. -/
  toMove : NameMap SectionAddress
deriving DecidableEq

/-- A commit of which only some buckets are given. -/
structure Patch where
  toAdd : Option (NameMap Upload)
  toDelete : Option NameSet
  toCopy : Option (NameMap SectionAddress)
  toMove : Option (NameMap SectionAddress)
deriving DecidableEq

/-- The number of operations of each kind. -/
structure CommitSummary where
  add : Nat
  delete : Nat
  copy : Nat
  move : Nat
deriving DecidableEq, Repr

namespace Patch

/-- The patch without any bucket. -/
def none : Patch := ⟨.none, .none, .none, .none⟩

instance : Inhabited Patch := ⟨none⟩

/-- The patch that adds packages. -/
def add (uploads : NameMap Upload) : Patch := { Patch.none with toAdd := uploads }

/-- The patch that deletes packages. -/
def delete (names : List String) : Patch := { Patch.none with toDelete := NameSet.ofNames names }

/-- Every name with the same target. -/
def transfer (names : List String) (target : SectionAddress) : NameMap SectionAddress :=
  .ofList (names.map fun n => (n, target))

/-- The patch that copies packages into a section. -/
def copy (names : List String) (target : SectionAddress) : Patch :=
  { Patch.none with toCopy := transfer names target }

/-- The patch that moves packages into a section. -/
def move (names : List String) (target : SectionAddress) : Patch :=
  { Patch.none with toMove := transfer names target }

/-- The patch with all buckets of a commit. -/
def ofCommit (c : Commit) : Patch := ⟨c.toAdd, c.toDelete, c.toCopy, c.toMove⟩

end Patch

namespace Commit

/-- The commit without any operation. -/
def empty : Commit := ⟨.empty, .empty, .empty, .empty⟩

instance : Inhabited Commit := ⟨empty⟩

/-- The commit with the buckets of a patch; a bucket that is not given is empty. -/
def ofPatch (p : Patch) : Commit :=
  ⟨p.toAdd.getD .empty, p.toDelete.getD .empty, p.toCopy.getD .empty, p.toMove.getD .empty⟩

/-- The names of all operations, bucket by bucket. -/
def names (c : Commit) : List String :=
  c.toAdd.names ++ c.toDelete.names ++ c.toCopy.names ++ c.toMove.names

/-- The first name of a list that has been met before, in it or in `seen`. -/
def firstRepeated (seen : List String) : List String → Option String
  | [] => none
  | n :: rest => if n ∈ seen then some n else firstRepeated (n :: seen) rest

/-- The first name that is in a second bucket. -/
def conflict? (c : Commit) : Option String := firstRepeated [] c.names

/-- The commit, if each name is in one bucket only. -/
def checked (c : Commit) : Except Error Commit :=
  match c.conflict? with
  | none => .ok c
  | some n => .error (.conflictingActions n)

/-- The commit with a patch put over it, bucket by bucket, whether or not a name is then in two
buckets. -/
def overlay (c : Commit) (p : Patch) : Commit :=
  let d := ofPatch p
  ⟨c.toAdd.overlay d.toAdd, c.toDelete.overlay d.toDelete, c.toCopy.overlay d.toCopy,
    c.toMove.overlay d.toMove⟩

/-- The commit with a patch put over it; it fails if a name is then in two buckets. -/
def merge (c : Commit) (p : Patch) : Except Error Commit := (c.overlay p).checked

/-- Whether there is no operation. -/
def isEmpty (c : Commit) : Bool :=
  c.toAdd.isEmpty && c.toDelete.isEmpty && c.toCopy.isEmpty && c.toMove.isEmpty

/-- The number of operations. -/
def size (c : Commit) : Nat := c.toAdd.size + c.toDelete.size + c.toCopy.size + c.toMove.size

/-- The number of operations of each kind. -/
def summary (c : Commit) : CommitSummary :=
  ⟨c.toAdd.size, c.toDelete.size, c.toCopy.size, c.toMove.size⟩

/-- The bucket that holds a name. -/
def actionOf (c : Commit) (name : String) : Option Action :=
  if c.toAdd.contains name then some .add
  else if c.toDelete.contains name then some .delete
  else if c.toCopy.contains name then some .copy
  else if c.toMove.contains name then some .move
  else none

/-- The commit without the operation of a name in one bucket. -/
def without (c : Commit) (name : String) : Action → Commit
  | .add => { c with toAdd := c.toAdd.erase name }
  | .delete => { c with toDelete := c.toDelete.erase name }
  | .copy => { c with toCopy := c.toCopy.erase name }
  | .move => { c with toMove := c.toMove.erase name }

/-- The commit without the operation that `actionOf` finds for a name, and that operation. -/
def remove? (c : Commit) (name : String) : Option (Action × Commit) :=
  (c.actionOf name).map fun a => (a, c.without name a)

/-- Whether both hold the same operations, files being compared by the steps of their paths. -/
def agrees (c d : Commit) : Bool :=
  c.toAdd.names = d.toAdd.names
    && (c.toAdd.entries.zip d.toAdd.entries).all (fun e => e.1.2.agrees e.2.2)
    && c.toDelete = d.toDelete && c.toCopy = d.toCopy && c.toMove = d.toMove

end Commit

end PackageStaging
