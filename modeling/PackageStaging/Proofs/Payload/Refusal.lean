/-
# Areas that cannot be sent

An area is encoded exactly if nothing is missing of any upload (`encode_refuses_first`).  Otherwise
it is refused with the name of the first upload that lacks something, in the order of the sections
and within a section in the order of the names, and with all that this upload lacks.  The uploads
of all sections are searched one after another, so the search finds the first section that has such
an upload (`List.find?_flatMap`) and in it the least name (`NameMap.find?_entries`).
-/
import PackageStaging.Proofs.Payload.Encoding
import PackageStaging.Proofs.Staging.Operations

namespace PackageStaging

/-! ### What an upload lacks -/

namespace Upload

variable {u : Upload} {r : Requirement}

/-- The upload is without something that it needs to be sent. -/
def Lacks (u : Upload) : Requirement → Prop
  | .packageFile => u.file = none
  | .signatureFile => u.signature = none
  | .branch => u.target.branch = ""
  | .repository => u.target.repository = ""
  | .architecture => u.target.architecture = ""

lemma mem_missing : r ∈ u.missing ↔ u.Lacks r := by
  cases r <;> simp [missing, Lacks]

/-- What is missing is reported in this order, and nothing twice. -/
lemma missing_sublist (u : Upload) :
    u.missing.Sublist [.packageFile, .signatureFile, .branch, .repository, .architecture] := by
  have hone : ∀ (c : Prop) [Decidable c] (r : Requirement),
      (if c then [r] else []).Sublist [r] := by
    intro c _ r
    split_ifs <;> simp
  exact ((((hone _ _).append (hone _ _)).append (hone _ _)).append (hone _ _)).append (hone _ _)

lemma ready?_eq_none_iff : u.ready? = none ↔ ∃ r, u.Lacks r := by
  have hlacks : (∃ r, u.Lacks r) ↔ u.missing ≠ [] := by
    simp only [← mem_missing, ne_eq, List.eq_nil_iff_forall_not_mem, not_forall, not_not]
  rw [hlacks, ready?]
  cases hfile : u.file with
  | none => simp [missing, hfile]
  | some file =>
    cases hsignature : u.signature with
    | none => simp [missing, hsignature]
    | some signature =>
      show (if u.missing = [] then some _ else none) = none ↔ _
      split_ifs with h <;> simp [h]

end Upload

/-! ### The first upload that lacks something -/

/-- The search through a map finds the least name for which it succeeds. -/
lemma NameMap.find?_entries {α : Type} (m : NameMap α) (f : α → Bool) {n : String} {v : α} :
    m.entries.find? (fun e => f e.2) = some (n, v) ↔
      m.get? n = some v ∧ f v = true ∧ ∀ n' v', n' < n → m.get? n' = some v' → f v' = false := by
  have hascending := m.ascending
  simp only [get?_eq_some_iff]
  rw [List.find?_eq_some_iff_append]
  constructor
  · rintro ⟨hf, before, after, hsplit, hbefore⟩
    rw [hsplit, List.pairwise_append, List.pairwise_cons] at hascending
    refine ⟨by simp [hsplit], hf, fun n' v' hlt hmem => ?_⟩
    rw [hsplit, List.mem_append, List.mem_cons] at hmem
    rcases hmem with hmem | hmem | hmem
    · simpa using hbefore _ hmem
    · rw [(Prod.mk.inj hmem).1] at hlt
      exact absurd hlt (String.lt_irrefl _)
    · exact absurd hlt (String.lt_asymm (hascending.2.1.1 _ hmem))
  · rintro ⟨hmem, hf, hleast⟩
    obtain ⟨before, after, hsplit⟩ := List.append_of_mem hmem
    rw [hsplit, List.pairwise_append] at hascending
    refine ⟨hf, before, after, hsplit, fun e he => ?_⟩
    have hlt : e.1 < n := hascending.2.2 e he (n, v) (.head _)
    rw [hleast e.1 e.2 hlt (by simp [hsplit, he])]
    rfl

/-- Nothing is missing of any upload of the commit. -/
def Commit.IsReady (c : Commit) : Prop :=
  ∀ n u, c.toAdd.get? n = some u → ∀ r, ¬u.Lacks r

lemma Commit.isReady_iff {c : Commit} :
    c.IsReady ↔ c.toAdd.entries.find? (fun v => v.2.ready?.isNone) = none := by
  simp only [IsReady, NameMap.get?_eq_some_iff, List.find?_eq_none, Option.isNone_iff_eq_none,
    Upload.ready?_eq_none_iff, not_exists, Prod.forall]

/-- The upload with this name is the first one of the area that lacks something. -/
def StagingArea.FirstLacking (a : StagingArea) (n : String) (u : Upload) : Prop :=
  ∃ before e after, a.entries = before ++ e :: after ∧ (∀ d ∈ before, d.commit.IsReady) ∧
    e.commit.toAdd.get? n = some u ∧ (∃ r, u.Lacks r) ∧
    ∀ n' u', n' < n → e.commit.toAdd.get? n' = some u' → ∀ r, ¬u'.Lacks r

namespace Payload

variable {a : StagingArea} {n : String} {u : Upload}

lemma find?_uploads : a.uploads.find? (fun v => v.2.ready?.isNone) = some (n, u) ↔
    a.FirstLacking n u := by
  rw [StagingArea.uploads, List.find?_flatMap, List.findSome?_eq_some_iff]
  simp only [NameMap.find?_entries _ fun u : Upload => u.ready?.isNone, ← Commit.isReady_iff,
    StagingArea.FirstLacking, Option.isNone_iff_eq_none, Upload.ready?_eq_none_iff,
    ← Bool.not_eq_true, not_exists]
  refine exists_congr fun before => exists_congr fun e => exists_congr fun after => ?_
  rw [and_comm (b := ∀ d ∈ before, d.commit.IsReady)]

lemma find?_uploads_eq_none : a.uploads.find? (fun v => v.2.ready?.isNone) = none ↔
    ∀ e ∈ a.entries, e.commit.IsReady := by
  rw [StagingArea.uploads, List.find?_flatMap, List.findSome?_eq_none_iff]
  simp only [Commit.isReady_iff]

/-- An area is encoded exactly if no upload lacks anything.  Otherwise the error names the first
upload that does, in the order of the sections and then of the names, and lists what it lacks: each
thing once, and in a fixed order. -/
theorem encode_refuses_first (a : StagingArea) :
    ((∃ form, encode a = .ok form) ↔ ∀ e ∈ a.entries, e.commit.IsReady) ∧
    (∀ err, encode a = .error err ↔
      ∃ n u, a.FirstLacking n u ∧ err = .missingFields n u.missing) ∧
    ∀ u : Upload, (∀ r, r ∈ u.missing ↔ u.Lacks r) ∧ (u.missing.map Requirement.label).Sublist
      ["package file", "signature file", "branch", "repository", "architecture"] := by
  refine ⟨?_, fun err => ?_, fun u => ⟨fun r => Upload.mem_missing, u.missing_sublist.map _⟩⟩
  · rw [← find?_uploads_eq_none]
    cases hencode : encode a with
    | ok form =>
      refine iff_of_true ⟨form, rfl⟩ (Option.eq_none_iff_forall_ne_some.2 fun v hv => ?_)
      rw [encode_eq_error_iff.2 ⟨v, hv, rfl⟩] at hencode
      cases hencode
    | error err =>
      obtain ⟨v, hv, -⟩ := encode_eq_error_iff.1 hencode
      refine iff_of_false ?_ (by simp [hv])
      rintro ⟨form, hform⟩
      cases hform
  · rw [encode_eq_error_iff]
    simp only [Prod.exists, find?_uploads]

/-- Deletions lack nothing, and of two uploads of one section the lesser name is reported. -/
example : encode ⟨[⟨⟨"stable/core/x86_64"⟩, .ofPatch (.delete ["bash"])⟩,
    ⟨⟨"stable/extra/x86_64"⟩, .ofPatch (.add (.ofList
      [("zsh", ⟨"zsh", .blank, none, none⟩),
        ("vim", ⟨"vim", ⟨"stable", "", "x86_64"⟩, some ⟨.ofString "/p/vim"⟩, none⟩)]))⟩]⟩ =
    .error (.missingFields "vim" [.signatureFile, .repository]) := by
  rfl

end Payload

end PackageStaging
