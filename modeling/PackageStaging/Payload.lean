/-
# What is sent to apply the staging area

All pending commits are sent at once, as the parts of one form: for each upload its file, its
signature and its section under a running number, then the deletions, copies and moves of all
sections as three JSON lists.  `Payload.encode` refuses the staging area at the first upload that
lacks something.
-/
import PackageStaging.Wire.Staged

namespace PackageStaging

/-- One part of a form. -/
inductive Part where
  /-- A local file. -/
  | file (field : String) (artifact : Artifact)
  /-- A text. -/
  | text (field value : String)
deriving DecidableEq, Repr

/-- The name of the field that a part fills. -/
def Part.field : Part → String
  | .file field _ => field
  | .text field _ => field

/-- The text of a part that is one. -/
def Part.text? : Part → Option String
  | .file _ _ => none
  | .text _ value => some value

/-- The file of a part that is one. -/
def Part.file? : Part → Option Artifact
  | .file _ artifact => some artifact
  | .text _ _ => none

/-- The parts of a form in the order in which they are sent. -/
structure Payload where
  /-- The parts. -/
  parts : List Part
  /-- The number of packages that are uploaded. -/
  packageCount : Nat
deriving DecidableEq, Repr

/-- A package of which nothing is missing. -/
structure ReadyUpload where
  file : Artifact
  signature : Artifact
  target : SectionAddress
deriving DecidableEq, Repr

/-- An upload as it is sent, if nothing is missing of it. -/
def Upload.ready? (u : Upload) : Option ReadyUpload :=
  match u.file, u.signature with
  | some file, some signature =>
    if u.missing = [] then some ⟨file, signature, u.target⟩ else none
  | _, _ => none

/-- A package that is copied or moved. -/
structure Transfer where
  name : String
  origin : SectionAddress
  target : SectionAddress
deriving DecidableEq, Repr

namespace StagingArea

/-- The uploads of all sections with the names under which they are staged. -/
def uploads (a : StagingArea) : List (String × Upload) :=
  a.entries.flatMap fun e => e.commit.toAdd.entries

/-- The deletions of all sections, each with the section that it is staged in. -/
def deletions (a : StagingArea) : List (String × SectionAddress) :=
  a.entries.flatMap fun e => e.commit.toDelete.names.map fun n => (n, e.origin)

/-- The transfers in one bucket of all sections. -/
def transfers (bucket : Commit → NameMap SectionAddress) (a : StagingArea) : List Transfer :=
  a.entries.flatMap fun e => (bucket e.commit).entries.map fun t => ⟨t.1, e.origin, t.2⟩

/-- The copies of all sections. -/
def copies (a : StagingArea) : List Transfer := a.transfers Commit.toCopy

/-- The moves of all sections. -/
def moves (a : StagingArea) : List Transfer := a.transfers Commit.toMove

end StagingArea

namespace Payload

/-- The name of the field for one item of the package with this number. -/
def packageField (number : Nat) (item : String) : String :=
  "package" ++ toString number ++ "." ++ item

/-- The parts of the package with this number. -/
def packageParts (number : Nat) (u : ReadyUpload) : List Part :=
  [.file (packageField number "filepath") u.file,
    .file (packageField number "signature") u.signature,
    .text (packageField number "section") (Wire.sectionValue u.target).compactText]

/-- The parts of packages that are numbered from `number` on. -/
def numberedParts (number : Nat) : List ReadyUpload → List Part
  | [] => []
  | u :: us => packageParts number u ++ numberedParts (number + 1) us

/-- The deletions as JSON. -/
def deletionsValue (ds : List (String × SectionAddress)) : Json.Value :=
  .list (ds.map fun d => .object [("name", .text d.1), ("section", Wire.sectionValue d.2)])

/-- Copies or moves as JSON. -/
def transfersValue (ts : List Transfer) : Json.Value :=
  .list (ts.map fun t => .object [("name", .text t.name),
    ("from_section", Wire.sectionValue t.origin), ("to_section", Wire.sectionValue t.target)])

/-- The parts for what is done with packages that are on the server already. -/
def closingParts (a : StagingArea) : List Part :=
  [.text "to_delete" (deletionsValue a.deletions).compactText,
    .text "to_copy" (transfersValue a.copies).compactText,
    .text "to_move" (transfersValue a.moves).compactText]

/-- An upload as it is sent, or the error that names what is missing. -/
def require (e : String × Upload) : Except Error ReadyUpload :=
  match e.2.ready? with
  | some u => .ok u
  | none => .error (.missingFields e.1 e.2.missing)

/-- The form that applies the whole staging area. -/
def encode (a : StagingArea) : Except Error Payload := do
  let ready ← a.uploads.mapM require
  return ⟨numberedParts 1 ready ++ closingParts a, ready.length⟩

/-- The text of a field. -/
def text? (p : Payload) (field : String) : Option String :=
  p.parts.findSome? fun part => if part.field = field then part.text? else none

/-- The file of a field. -/
def file? (p : Payload) (field : String) : Option Artifact :=
  p.parts.findSome? fun part => if part.field = field then part.file? else none

/-- The names of the fields, in the order in which they are sent. -/
def fields (p : Payload) : List String := p.parts.map Part.field

/-- The files, in the order in which they are sent. -/
def artifacts (p : Payload) : List Artifact := p.parts.filterMap Part.file?

end Payload

end PackageStaging
