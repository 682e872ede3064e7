/-
# Paths of the file system

A path is a sequence of bytes in which `/` separates names.  Two paths of different bytes may
name the same place: `components` is the view under which they are compared (`agrees`).
-/
import PackageStaging.Text.Utf8

namespace PackageStaging

/-- A path, absolute or relative to a working directory. -/
structure Path where
  /-- The bytes as they were given. -/
  bytes : Bytes
deriving DecidableEq, Repr, Inhabited

namespace Path

/-- The byte of the separator `/`. -/
def slash : UInt8 := 0x2F

/-- The byte of a full stop. -/
def dot : UInt8 := 0x2E

/-- The path that a text spells. -/
def ofString (s : String) : Path := ⟨Utf8.encode s⟩

/-- The path for people to read; bytes that spell no text are replaced. -/
def display (p : Path) : String := Utf8.lossy p.bytes

/-- The path as a text, if its bytes spell one. -/
def text? (p : Path) : Option String := Utf8.decode? p.bytes

/-- One step of a path. -/
inductive Component where
  /-- The root directory, at the front of an absolute path. -/
  | root
  /-- The working directory, spelled `.` at the front of a relative path. -/
  | here
  /-- The directory above, spelled `..`. -/
  | up
  /-- The entry of that name. -/
  | entry (name : Bytes)
deriving DecidableEq, Repr

/-- The runs of bytes between the separators. -/
def segments : Bytes → List Bytes
  | [] => [[]]
  | b :: rest =>
    if b = slash then [] :: segments rest
    else match segments rest with
      | [] => [[b]]
      | s :: ss => (b :: s) :: ss

/-- Whether the path starts at the root. -/
def isAbsolute (p : Path) : Bool := p.bytes.head? == some slash

/-- The step that a segment stands for; empty segments and `.` stand for none. -/
def Component.ofSegment (s : Bytes) : Option Component :=
  if s = [] ∨ s = [dot] then none
  else if s = [dot, dot] then some .up
  else some (.entry s)

/-- The steps of the path. -/
def components (p : Path) : List Component :=
  let parts := segments p.bytes
  let steps := parts.filterMap Component.ofSegment
  if p.isAbsolute then .root :: steps
  else if parts.head? = some [dot] then .here :: steps
  else steps

/-- Whether both paths have the same steps. -/
def agrees (p q : Path) : Bool := p.components = q.components

/-- The name of the entry that the path leads to; a path that ends at a root, at the working
directory or at a directory above has none. -/
def fileName? (p : Path) : Option Bytes :=
  match p.components.getLast? with
  | some (.entry name) => some name
  | _ => none

/-- The name of the file as text, empty if the path has none. -/
def fileName (p : Path) : String :=
  match p.fileName? with
  | some name => Utf8.lossy name
  | none => ""

/-- The path that leads from `base` on along `p`. -/
def join (base p : Path) : Path :=
  if p.isAbsolute then p
  else if base.bytes = [] ∨ base.bytes.getLast? = some slash then ⟨base.bytes ++ p.bytes⟩
  else ⟨base.bytes ++ slash :: p.bytes⟩

instance : Div Path := ⟨join⟩

/-- The path of the entry of that name in a directory. -/
def entry (base : Path) (name : String) : Path := base.join (ofString name)

/-- The bytes of a step. -/
def Component.bytes : Component → Bytes
  | .root => [slash]
  | .here => [dot]
  | .up => [dot, dot]
  | .entry name => name

/-- The segments between separators joined again. -/
def joinSegments : List Bytes → Bytes
  | [] => []
  | [s] => s
  | s :: ss => s ++ slash :: joinSegments ss

/-- The rest of a relative path after its first step, if that step is the entry of this name.
Separators and `.` at either end of the rest are dropped. -/
def stripFirst? (name : Bytes) (p : Path) : Option Path :=
  let idle := fun s : Bytes => s = [] ∨ s = [dot]
  match segments p.bytes with
  | s :: ss =>
    if s = name ∧ Component.ofSegment s = some (.entry name) then
      let front := ss.dropWhile fun s => decide (idle s)
      let both := (front.reverse.dropWhile fun s => decide (idle s)).reverse
      some ⟨joinSegments both⟩
    else none
  | [] => none

/-- The segments without those at their end that stand for no step. -/
def trimmedSegments (ss : List Bytes) : List Bytes :=
  (ss.reverse.dropWhile fun s => decide (s = [] ∨ s = [dot])).reverse

/-- The path of the directory that the last step starts from.  The root has none. -/
def parent? (p : Path) : Option Path :=
  match p.components.getLast? with
  | none | some .root => none
  | some _ =>
    let ss := segments p.bytes
    let front := match trimmedSegments ss with
      | [] => []
      | kept => trimmedSegments kept.dropLast
    if p.isAbsolute ∧ front = [] then some ⟨[slash]⟩ else some ⟨joinSegments front⟩

/-- The path seen from the root, given the working directory: `.` and repeated separators go,
`..` stays, and so do a separator at the end and a pair of separators at the front. -/
def absolute (cwd p : Path) : Path :=
  let steps := match p.components with
    | .here :: rest => rest
    | steps => steps
  let doubled := p.bytes.take 2 = [slash, slash] ∧ p.bytes[2]? ≠ some slash
  let base : Path × List Component :=
    if p.isAbsolute then
      if doubled then (⟨[slash, slash]⟩, steps.drop 1) else (⟨[]⟩, steps)
    else (cwd, steps)
  let full := base.2.foldl (fun q c => q.join ⟨c.bytes⟩) base.1
  if p.bytes.getLast? = some slash then full.join ⟨[]⟩ else full

end Path

end PackageStaging
