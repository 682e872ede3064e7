/-
# Sections are read back

The reader of sections reads what is written for a section, whatever characters its fields hold.
-/
import PackageStaging.Proofs.Json.Records
import PackageStaging.Wire.Staged

namespace PackageStaging.Wire

open Json (Reads Takes reads_record reads_string takes_member)

theorem reads_section (s : SectionAddress) : Reads readSection (sectionValue s) s := by
  have hbranch : Takes sectionRecord.takeMember ⟨none, none, none⟩ ("branch", .text s.branch)
      ⟨some s.branch, none, none⟩ :=
    takes_member rfl rfl
      ((reads_string s.branch).map fun t => (⟨some t, none, none⟩ : SectionFields))
  have hrepository : Takes sectionRecord.takeMember ⟨some s.branch, none, none⟩
      ("repository", .text s.repository) ⟨some s.branch, some s.repository, none⟩ :=
    takes_member rfl rfl
      ((reads_string s.repository).map fun t => (⟨some s.branch, some t, none⟩ : SectionFields))
  have harchitecture : Takes sectionRecord.takeMember ⟨some s.branch, some s.repository, none⟩
      ("architecture", .text s.architecture)
      ⟨some s.branch, some s.repository, some s.architecture⟩ :=
    takes_member rfl rfl ((reads_string s.architecture).map fun t =>
      (⟨some s.branch, some s.repository, some t⟩ : SectionFields))
  exact reads_record (.cons hbranch (.cons hrepository (.cons harchitecture .nil))) rfl

end PackageStaging.Wire
