/-
# Uploads

A package file that is to be uploaded, with its detached signature.  Either may be missing while
the upload is staged; `missing` lists what has to be there before it can be sent.
-/
import PackageStaging.Path
import PackageStaging.Section

namespace PackageStaging

/-- A local file that is sent with a commit. -/
structure Artifact where
  /-- Where the file lies. -/
  path : Path
deriving DecidableEq, Repr

/-- The name under which the file is sent. -/
def Artifact.fileName (a : Artifact) : String := a.path.fileName

/-- Whether both are the same file by the steps of their paths. -/
def Artifact.agrees (a b : Artifact) : Bool := a.path.agrees b.path

/-- A package to be uploaded into a section. -/
structure Upload where
  /-- The name of the package file. -/
  name : String
  /-- The section that the package goes to. -/
  target : SectionAddress
  /-- The package file. -/
  file : Option Artifact
  /-- The detached signature. -/
  signature : Option Artifact
deriving DecidableEq, Repr

/-- Something without which an upload cannot be sent. -/
inductive Requirement where
  | packageFile
  | signatureFile
  | branch
  | repository
  | architecture
deriving DecidableEq, Repr

/-- What a message calls it. -/
def Requirement.label : Requirement → String
  | .packageFile => "package file"
  | .signatureFile => "signature file"
  | .branch => "branch"
  | .repository => "repository"
  | .architecture => "architecture"

namespace Upload

/-- What is missing of the upload, in the order in which it is reported. -/
def missing (u : Upload) : List Requirement :=
  (if u.file.isNone then [.packageFile] else [])
    ++ (if u.signature.isNone then [.signatureFile] else [])
    ++ (if u.target.branch = "" then [.branch] else [])
    ++ (if u.target.repository = "" then [.repository] else [])
    ++ (if u.target.architecture = "" then [.architecture] else [])

/-- Whether two optional files are both missing or the same. -/
def agreesOn : Option Artifact → Option Artifact → Bool
  | some a, some b => a.agrees b
  | none, none => true
  | _, _ => false

/-- Whether both are the same upload, their files compared by the steps of their paths. -/
def agrees (u v : Upload) : Bool :=
  u.name = v.name && u.target = v.target && agreesOn u.file v.file
    && agreesOn u.signature v.signature

end Upload

end PackageStaging
