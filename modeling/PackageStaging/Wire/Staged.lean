/-
# The staging area as JSON

How sections, uploads, commits and the staging area are written and read.  A path is written as
text, so one whose bytes spell no text cannot be written.
-/
import PackageStaging.Json.Reader
import PackageStaging.Json.Value
import PackageStaging.StagingArea

namespace PackageStaging.Wire

open Json (Value Reader Record Member)

/-! ### Sections -/

/-- A section as JSON. -/
def sectionValue (s : SectionAddress) : Value :=
  .object [("branch", .text s.branch), ("repository", .text s.repository),
    ("architecture", .text s.architecture)]

/-- The fields of a section that have been read. -/
structure SectionFields where
  branch : Option String
  repository : Option String
  architecture : Option String

/-- A section; a field that is missing is not set. -/
def sectionRecord : Record SectionFields SectionAddress where
  wanted := Json.structName "SectionAddress"
  members := [
    { key := "branch", present := (·.branch.isSome), mayEnd := true,
      read := fun σ s => do let (v, s) ← Json.string s; return ({ σ with branch := v }, s) },
    { key := "repository", present := (·.repository.isSome), mayEnd := true,
      read := fun σ s => do let (v, s) ← Json.string s; return ({ σ with repository := v }, s) },
    { key := "architecture", present := (·.architecture.isSome), mayEnd := true,
      read := fun σ s => do
        let (v, s) ← Json.string s
        return ({ σ with architecture := v }, s) }]
  blank := ⟨none, none, none⟩
  finish := fun σ =>
    .ok ⟨σ.branch.getD "", σ.repository.getD "", σ.architecture.getD ""⟩

/-- Reads a section. -/
def readSection : Reader SectionAddress := sectionRecord.read

/-- Reads the key of a section. -/
def readKey : Reader SectionKey := fun s => do
  let (t, s) ← Json.string s
  return (⟨t⟩, s)

/-! ### Uploads -/

/-- The fault of a path that cannot be written. -/
def unwritablePath : Json.Fault :=
  ⟨.content (.refused "path contains invalid UTF-8 characters"), none⟩

/-- A local file as JSON. -/
def artifactValue (a : Artifact) : Except Json.Fault Value :=
  match a.path.text? with
  | some t => .ok (.object [("path", .text t)])
  | none => .error unwritablePath

/-- A local file, of which only the path is known. -/
def artifactRecord : Record (Option Path) Artifact where
  wanted := Json.structName "Artifact"
  members := [
    { key := "path", present := Option.isSome, mayEnd := false,
      read := fun _ s => do
        let (t, s) ← Json.stringAs "path string" s
        return (some (.ofString t), s) }]
  blank := none
  finish := fun p => do return ⟨← Json.required "path" p⟩

/-- Reads a local file. -/
def readArtifact : Reader Artifact := artifactRecord.read

/-- A local file as JSON, or `null` for none. -/
def artifactOrNull : Option Artifact → Except Json.Fault Value
  | some a => artifactValue a
  | none => .ok .null

/-- An upload as JSON. -/
def uploadValue (u : Upload) : Except Json.Fault Value := do
  let file ← artifactOrNull u.file
  let signature ← artifactOrNull u.signature
  return .object [("name", .text u.name), ("section", sectionValue u.target), ("file", file),
    ("signature", signature)]

/-- The fields of an upload that have been read. -/
structure UploadFields where
  name : Option String
  target : Option SectionAddress
  file : Option (Option Artifact)
  signature : Option (Option Artifact)

/-- An upload; its files may be missing. -/
def uploadRecord : Record UploadFields Upload where
  wanted := Json.structName "PackageUpload"
  members := [
    { key := "name", present := (·.name.isSome), mayEnd := false,
      read := fun σ s => do let (v, s) ← Json.string s; return ({ σ with name := v }, s) },
    { key := "section", present := (·.target.isSome), mayEnd := false,
      read := fun σ s => do let (v, s) ← readSection s; return ({ σ with target := v }, s) },
    { key := "file", present := (·.file.isSome), mayEnd := false,
      read := fun σ s => do
        let (v, s) ← Json.nullable readArtifact s
        return ({ σ with file := some v }, s) },
    { key := "signature", present := (·.signature.isSome), mayEnd := false,
      read := fun σ s => do
        let (v, s) ← Json.nullable readArtifact s
        return ({ σ with signature := some v }, s) }]
  blank := ⟨none, none, none, none⟩
  finish := fun σ => do
    let name ← Json.required "name" σ.name
    let target ← Json.required "section" σ.target
    return ⟨name, target, σ.file.join, σ.signature.join⟩

/-- Reads an upload. -/
def readUpload : Reader Upload := uploadRecord.read

/-! ### Commits -/

/-- The words for actions. -/
def actionWords : List (String × Action) :=
  [Action.add, .delete, .copy, .move].map fun a => (a.text, a)

/-- Reads an action. -/
def readAction : Reader Action := Json.oneOf actionWords

/-- Names with their sections as JSON. -/
def transfersValue (m : NameMap SectionAddress) : Value :=
  .object (m.entries.map fun e => (e.1, sectionValue e.2))

/-- A set of names as JSON. -/
def namesValue (m : NameSet) : Value := .list (m.names.map .text)

/-- Names with their uploads as JSON. -/
def uploadsValue (m : NameMap Upload) : Except Json.Fault Value := do
  let members ← m.entries.mapM fun e => do return (e.1, ← uploadValue e.2)
  return .object members

/-- A commit as JSON. -/
def commitValue (c : Commit) : Except Json.Fault Value := do
  let toAdd ← uploadsValue c.toAdd
  return .object [("to_add", toAdd), ("to_delete", namesValue c.toDelete),
    ("to_copy", transfersValue c.toCopy), ("to_move", transfersValue c.toMove)]

/-- Reads a map from names to values of one type; of repeated names the last counts. -/
def readNameMap {α : Type} (value : Reader α) : Reader (NameMap α) := fun s => do
  let (ms, s) ← Json.namedValues value s
  return (.ofList ms, s)

/-- Reads a set of names. -/
def readNames : Reader NameSet := fun s => do
  let (ns, s) ← Json.list Json.string s
  return (.ofNames ns, s)

/-- A commit; a bucket that is missing is empty. -/
def commitRecord : Record Patch Commit where
  wanted := Json.structName "Commit"
  members := [
    { key := "to_add", present := (·.toAdd.isSome), mayEnd := true,
      read := fun σ s => do
        let (v, s) ← readNameMap readUpload s
        return ({ σ with toAdd := some v }, s) },
    { key := "to_delete", present := (·.toDelete.isSome), mayEnd := true,
      read := fun σ s => do
        let (v, s) ← readNames s
        return ({ σ with toDelete := some v }, s) },
    { key := "to_copy", present := (·.toCopy.isSome), mayEnd := true,
      read := fun σ s => do
        let (v, s) ← readNameMap readSection s
        return ({ σ with toCopy := some v }, s) },
    { key := "to_move", present := (·.toMove.isSome), mayEnd := true,
      read := fun σ s => do
        let (v, s) ← readNameMap readSection s
        return ({ σ with toMove := some v }, s) }]
  blank := .none
  finish := fun σ => .ok (.ofPatch σ)

/-- Reads a commit. -/
def readCommit : Reader Commit := commitRecord.read

/-! ### The staging area -/

/-- A staged commit as JSON. -/
def stagedCommitValue (e : StagedCommit) : Except Json.Fault Value := do
  let commit ← commitValue e.commit
  return .object [("key", .text e.key.text), ("commit", commit)]

/-- The staging area as JSON. -/
def stagingAreaValue (a : StagingArea) : Except Json.Fault Value := do
  return .list (← a.entries.mapM stagedCommitValue)

/-- A staged commit. -/
def stagedCommitRecord : Record (Option SectionKey × Option Commit) StagedCommit where
  wanted := Json.structName "StagedCommit"
  members := [
    { key := "key", present := (·.1.isSome), mayEnd := false,
      read := fun σ s => do let (v, s) ← readKey s; return ((some v, σ.2), s) },
    { key := "commit", present := (·.2.isSome), mayEnd := false,
      read := fun σ s => do let (v, s) ← readCommit s; return ((σ.1, some v), s) }]
  blank := (none, none)
  finish := fun σ => do
    return ⟨← Json.required "key" σ.1, ← Json.required "commit" σ.2⟩

/-- Reads a staged commit. -/
def readStagedCommit : Reader StagedCommit := stagedCommitRecord.read

/-- The staging area of a document; lists that staging cannot produce are refused. -/
def decodeStagingArea (doc : Json.Source) : Except Json.Fault StagingArea :=
  Json.decodeChecked (Json.list readStagedCommit)
    (fun es => (StagingArea.ofEntries es).mapError Error.message) doc

end PackageStaging.Wire
