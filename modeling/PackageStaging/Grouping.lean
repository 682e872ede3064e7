/-
# Grouping files into uploads

Local files become one upload for each package: a file whose name ends in `.sig` is the signature
of the package of the name before it, every other file is a package.
-/
import PackageStaging.Commit

namespace PackageStaging

/-- The ending of the names of detached signatures. -/
def signatureEnding : List Char := ['.', 's', 'i', 'g']

/-- The name of the package that a signature of this file name belongs to; a file called just
`.sig` is no signature. -/
def signedName? (fileName : String) : Option String :=
  let cs := fileName.toList
  let stem := cs.take (cs.length - signatureEnding.length)
  if stem ≠ [] ∧ cs = stem ++ signatureEnding then some (String.ofList stem) else none

/-- The upload of a package of which nothing is known yet. -/
def Upload.bare (name : String) (target : SectionAddress) : Upload := ⟨name, target, none, none⟩

/-- The uploads with one more file, in place of one of the same kind for the same package.  A
path without a file name is passed over. -/
def groupFile (target : SectionAddress) (uploads : NameMap Upload) (p : Path) : NameMap Upload :=
  let fileName := p.fileName
  if fileName = "" then uploads
  else match signedName? fileName with
    | some name => uploads.alter name fun u =>
        { u.getD (.bare name target) with signature := some ⟨p⟩ }
    | none => uploads.alter fileName fun u =>
        { u.getD (.bare fileName target) with file := some ⟨p⟩ }

/-- The uploads into a section that a list of files makes. -/
def groupFiles (target : SectionAddress) (paths : List Path) : NameMap Upload :=
  paths.foldl (groupFile target) .empty

end PackageStaging
