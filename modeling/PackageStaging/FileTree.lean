/-
# A tree of files

Directories and files by the names that lead to them from the root.  `node?` is the view; the
operations are those of the system calls, with the reasons for which they are refused.  There are
no links, and everything may be read and written.
-/
import PackageStaging.Error
import PackageStaging.Lookup

namespace PackageStaging

/-- The names that lead from the root to a place. -/
abbrev Route := List Bytes

/-- What is at a place. -/
inductive Node where
  | directory
  | file (content : Bytes)
deriving DecidableEq, Repr

/-- Files and directories; the root is always there. -/
structure FileTree where
  nodes : List (Route × Node)
deriving DecidableEq, Repr

namespace FileTree

/-- The tree with nothing but the root. -/
def empty : FileTree := ⟨[]⟩

/-- What is at a place, if anything is. -/
def node? (t : FileTree) (r : Route) : Option Node :=
  if r = [] then some .directory else t.nodes.lookup r

/-- The tree with a node at a place, in place of the one that is there. -/
def put (t : FileTree) (r : Route) (n : Node) : FileTree :=
  ⟨(r, n) :: t.nodes.filter fun e => e.1 ≠ r⟩

/-- The tree with nothing at a place. -/
def remove (t : FileTree) (r : Route) : FileTree := ⟨t.nodes.filter fun e => e.1 ≠ r⟩

theorem node?_put (t : FileTree) (r r' : Route) (n : Node) (hr : r ≠ []) :
    (t.put r n).node? r' = if r = r' then some n else t.node? r' := by
  unfold node? put
  by_cases h' : r' = []
  · subst h'; simp [hr]
  · simp only [h', if_false, lookup_cons_ite, lookup_filter_ne]
    split <;> rfl

theorem node?_remove (t : FileTree) (r r' : Route) (hr : r ≠ []) :
    (t.remove r).node? r' = if r = r' then none else t.node? r' := by
  unfold node? remove
  by_cases h' : r' = []
  · subst h'; simp [hr]
  · simp only [h', if_false, lookup_filter_ne]

/-- The tree with a directory at a place and at every place on the way to it. -/
def withDirectories (t : FileTree) (r : Route) : FileTree :=
  (List.range r.length).foldl (fun t n =>
    let r := r.take (n + 1)
    if (t.node? r).isSome then t else t.put r .directory) t

/-- The tree with a file at a place and directories on the way to it. -/
def withFile (t : FileTree) (r : Route) (content : Bytes) : FileTree :=
  (t.withDirectories r.dropLast).put r (.file content)

/-! ### Paths -/

/-- The names that a path leads along. -/
def routeOf (p : Path) : Route :=
  p.components.filterMap fun
    | .entry name => some name
    | _ => none

/-- Where a path leads to. -/
structure Target where
  route : Route
  /-- Whether the path ends with a separator, so that it can only mean a directory. -/
  asDirectory : Bool
deriving DecidableEq, Repr

/-- The greatest number of bytes in a name. -/
def maxNameLength : Nat := 255

/-- Goes along the segments of a path; every one but the last has to be a directory. -/
def follow (t : FileTree) : Route → List Bytes → Except SystemFault Target
  | here, [] => .ok ⟨here, true⟩
  | here, s :: rest =>
    if s = [] ∨ s = [Path.dot] then follow t here rest
    else if s = [Path.dot, Path.dot] then follow t here.dropLast rest
    else if maxNameLength < s.length then .error .nameTooLong
    else
      let next := here ++ [s]
      if rest = [] then .ok ⟨next, false⟩
      else if rest.all (· = []) then .ok ⟨next, true⟩
      else match t.node? next with
        | none => .error .noSuchEntry
        | some (.file _) => .error .notADirectory
        | some .directory => follow t next rest

/-- The place that a path leads to from a working directory. -/
def locate (t : FileTree) (here : Route) (p : Path) : Except SystemFault Target :=
  if p.bytes = [] then .error .noSuchEntry
  else t.follow (if p.isAbsolute then [] else here) (Path.segments p.bytes)

/-- What a path leads to. -/
def find (t : FileTree) (here : Route) (p : Path) : Except SystemFault (Route × Node) := do
  let target ← t.locate here p
  match t.node? target.route with
  | none => .error .noSuchEntry
  | some (.file content) =>
    if target.asDirectory then .error .notADirectory else .ok (target.route, .file content)
  | some .directory => .ok (target.route, .directory)

/-! ### Operations -/

/-- Whether a path leads to a directory. -/
def isDirectory (t : FileTree) (here : Route) (p : Path) : Bool :=
  match t.find here p with
  | .ok (_, .directory) => true
  | _ => false

/-- Whether a path leads to a file. -/
def isFile (t : FileTree) (here : Route) (p : Path) : Bool :=
  match t.find here p with
  | .ok (_, .file _) => true
  | _ => false

/-- The size that is given for a directory. -/
def directorySize : Nat := 4096

/-- The size of what a path leads to. -/
def size (t : FileTree) (here : Route) (p : Path) : Except SystemFault Nat := do
  match ← t.find here p with
  | (_, .file content) => return content.length
  | (_, .directory) => return directorySize

/-- The content of a file. -/
def read (t : FileTree) (here : Route) (p : Path) : Except SystemFault Bytes := do
  match ← t.find here p with
  | (_, .file content) => return content
  | (_, .directory) => .error .isADirectory

/-- Whether the directory of a place is there. -/
def requireParent (t : FileTree) (r : Route) : Except SystemFault Unit :=
  match t.node? r.dropLast with
  | some .directory => .ok ()
  | some (.file _) => .error .notADirectory
  | none => .error .noSuchEntry

/-- Puts a content into a file. -/
def write (t : FileTree) (here : Route) (p : Path) (content : Bytes) :
    Except SystemFault FileTree := do
  let target ← t.locate here p
  match t.node? target.route with
  | some .directory => .error .isADirectory
  | some (.file _) =>
    if target.asDirectory then .error .notADirectory
    else return t.put target.route (.file content)
  | none => do
    t.requireParent target.route
    if target.asDirectory then .error .isADirectory
    else return t.put target.route (.file content)

/-- Removes a file. -/
def removeFile (t : FileTree) (here : Route) (p : Path) : Except SystemFault FileTree := do
  match ← t.find here p with
  | (r, .file _) => return t.remove r
  | (_, .directory) => .error .isADirectory

/-- Puts a file in the place of another one. -/
def replaceFile (t : FileTree) (here : Route) (source target : Path) :
    Except SystemFault FileTree := do
  match ← t.find here source with
  | (_, .directory) => .error .isADirectory
  | (r, .file content) => do
    let target ← t.locate here target
    match t.node? target.route with
    | some .directory => .error .isADirectory
    | _ => do
      t.requireParent target.route
      if target.asDirectory then .error .notADirectory
      else return (t.remove r).put target.route (.file content)

/-- Makes a directory. -/
def makeDirectory (t : FileTree) (here : Route) (p : Path) : Except SystemFault FileTree := do
  let target ← t.locate here p
  match t.node? target.route with
  | some _ => .error .alreadyExists
  | none => do
    t.requireParent target.route
    return t.put target.route .directory

/-- The names of what is in a directory. -/
def names (t : FileTree) (r : Route) : List Bytes :=
  t.nodes.filterMap fun e => if e.1.dropLast = r then e.1.getLast? else none

end FileTree

end PackageStaging
