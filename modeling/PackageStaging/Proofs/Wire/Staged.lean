/-
# The staging area is read back

What is written for a staging area is read as its entries, file by file, upload by upload and commit
by commit (`decode_of_spells`), and so as the same area if staging can make it
(`decode_stagingArea`).  Only an upload whose path spells no text cannot be written
(`stagingAreaValue_isOk_iff`).
-/
import PackageStaging.Proofs.Staging.Area
import PackageStaging.Proofs.Text.Utf8
import PackageStaging.Proofs.Wire.Sections

namespace PackageStaging

/-- The entries of a map make the map again. -/
lemma NameMap.ofList_entries {α : Type} (m : NameMap α) : ofList m.entries = m := by
  refine NameMap.ext fun n => ?_
  rw [ofList, get?_insertAll, lookup_reverse m.ascending, get?_empty, Option.or_none]
  rfl

namespace Wire

open Json (Reads Spells Takes Value reads_list reads_namedValues reads_nullable_null
  reads_nullable_some reads_record reads_string reads_stringAs takes_member)

variable {v : Value} {a : StagingArea}

/-! ### Uploads -/

lemma reads_artifact {a : Artifact} (h : artifactValue a = .ok v) : Reads readArtifact v a := by
  unfold artifactValue at h
  cases ht : a.path.text? with
  | none =>
    rw [ht] at h
    exact nomatch h
  | some t =>
    rw [ht] at h
    have hpath : Path.ofString t = a.path := by
      rw [Path.ofString, Utf8.encode_of_decode? ht]
    have htake : Takes artifactRecord.takeMember none ("path", .text t) (some a.path) := by
      rw [← hpath]
      exact takes_member rfl rfl
        ((reads_stringAs "path string" t).map fun t => some (Path.ofString t))
    rw [← Except.ok.inj h]
    exact reads_record (.cons htake .nil) rfl

lemma artifactOrNull_some {a : Artifact} (h : artifactOrNull (some a) = .ok v) :
    v ≠ .null := by
  rw [artifactOrNull, artifactValue] at h
  split at h
  · rw [← Except.ok.inj h]
    exact Value.noConfusion
  · exact nomatch h

lemma reads_artifactOrNull {o : Option Artifact} (h : artifactOrNull o = .ok v) :
    Reads (Json.nullable readArtifact) v o := by
  cases o with
  | none =>
    rw [← Except.ok.inj h]
    exact reads_nullable_null readArtifact
  | some a => exact reads_nullable_some (reads_artifact h) (artifactOrNull_some h)

lemma reads_upload {u : Upload} (h : uploadValue u = .ok v) : Reads readUpload v u := by
  obtain ⟨file, hfile, hrest⟩ := bind_eq_ok_iff.1 h
  obtain ⟨signature, hsignature, hv⟩ := bind_eq_ok_iff.1 hrest
  have h1 : Takes uploadRecord.takeMember ⟨none, none, none, none⟩ ("name", .text u.name)
      ⟨some u.name, none, none, none⟩ :=
    takes_member rfl rfl
      ((reads_string u.name).map fun t => (⟨some t, none, none, none⟩ : UploadFields))
  have h2 : Takes uploadRecord.takeMember ⟨some u.name, none, none, none⟩
      ("section", sectionValue u.target) ⟨some u.name, some u.target, none, none⟩ :=
    takes_member rfl rfl ((reads_section u.target).map fun s =>
      (⟨some u.name, some s, none, none⟩ : UploadFields))
  have h3 : Takes uploadRecord.takeMember ⟨some u.name, some u.target, none, none⟩
      ("file", file) ⟨some u.name, some u.target, some u.file, none⟩ :=
    takes_member rfl rfl ((reads_artifactOrNull hfile).map fun o =>
      (⟨some u.name, some u.target, some o, none⟩ : UploadFields))
  have h4 : Takes uploadRecord.takeMember ⟨some u.name, some u.target, some u.file, none⟩
      ("signature", signature) ⟨some u.name, some u.target, some u.file, some u.signature⟩ :=
    takes_member rfl rfl ((reads_artifactOrNull hsignature).map fun o =>
      (⟨some u.name, some u.target, some u.file, some o⟩ : UploadFields))
  rw [← Except.ok.inj hv]
  exact reads_record (.cons h1 (.cons h2 (.cons h3 (.cons h4 .nil)))) rfl

/-! ### Commits -/

/-- A map is read back if its values are. -/
lemma reads_nameMap {α : Type} {r : Json.Reader α} {m : NameMap α}
    {ms : List (String × Value)}
    (hall : List.Forall₂ (fun m e => m.1 = e.1 ∧ Reads r m.2 e.2) ms m.entries) :
    Reads (readNameMap r) (.object ms) m := by
  have hread := (reads_namedValues hall).map NameMap.ofList
  rwa [m.ofList_entries] at hread

lemma reads_transfers (m : NameMap SectionAddress) :
    Reads (readNameMap readSection) (transfersValue m) m := by
  refine reads_nameMap ?_
  rw [List.forall₂_map_left_iff]
  exact List.forall₂_same.2 fun e _ => ⟨rfl, reads_section e.2⟩

lemma reads_names (m : NameSet) : Reads readNames (namesValue m) m := by
  have hall : List.Forall₂ (Reads Json.string) (m.names.map .text) m.names := by
    rw [List.forall₂_map_left_iff]
    exact List.forall₂_same.2 fun n _ => reads_string n
  have hread := (reads_list hall).map NameSet.ofNames
  have hset : NameSet.ofNames m.names = m := by
    rw [NameSet.ofNames, NameMap.names, List.map_map]
    exact (congrArg NameMap.ofList (List.map_id m.entries)).trans m.ofList_entries
  rwa [hset] at hread

lemma reads_uploads {m : NameMap Upload} (h : uploadsValue m = .ok v) :
    Reads (readNameMap readUpload) v m := by
  obtain ⟨ms, hms, hv⟩ := bind_eq_ok_iff.1 h
  rw [← Except.ok.inj hv]
  refine reads_nameMap (List.Forall₂.flip ((mapM_eq_ok_iff.1 hms).imp ?_))
  intro e member hmember
  obtain ⟨w, hw, hpair⟩ := bind_eq_ok_iff.1 hmember
  rw [← Except.ok.inj hpair]
  exact ⟨rfl, reads_upload hw⟩

lemma reads_commit {c : Commit} (h : commitValue c = .ok v) : Reads readCommit v c := by
  obtain ⟨toAdd, htoAdd, hv⟩ := bind_eq_ok_iff.1 h
  have h1 : Takes commitRecord.takeMember .none ("to_add", toAdd)
      ⟨some c.toAdd, none, none, none⟩ :=
    takes_member rfl rfl
      ((reads_uploads htoAdd).map fun m => (⟨some m, none, none, none⟩ : Patch))
  have h2 : Takes commitRecord.takeMember ⟨some c.toAdd, none, none, none⟩
      ("to_delete", namesValue c.toDelete) ⟨some c.toAdd, some c.toDelete, none, none⟩ :=
    takes_member rfl rfl ((reads_names c.toDelete).map fun m =>
      (⟨some c.toAdd, some m, none, none⟩ : Patch))
  have h3 : Takes commitRecord.takeMember ⟨some c.toAdd, some c.toDelete, none, none⟩
      ("to_copy", transfersValue c.toCopy)
      ⟨some c.toAdd, some c.toDelete, some c.toCopy, none⟩ :=
    takes_member rfl rfl ((reads_transfers c.toCopy).map fun m =>
      (⟨some c.toAdd, some c.toDelete, some m, none⟩ : Patch))
  have h4 : Takes commitRecord.takeMember ⟨some c.toAdd, some c.toDelete, some c.toCopy, none⟩
      ("to_move", transfersValue c.toMove) (.ofCommit c) :=
    takes_member rfl rfl ((reads_transfers c.toMove).map fun m =>
      (⟨some c.toAdd, some c.toDelete, some c.toCopy, some m⟩ : Patch))
  rw [← Except.ok.inj hv]
  exact reads_record (.cons h1 (.cons h2 (.cons h3 (.cons h4 .nil)))) rfl

/-! ### The staging area -/

lemma reads_stagedCommit {e : StagedCommit} (h : stagedCommitValue e = .ok v) :
    Reads readStagedCommit v e := by
  obtain ⟨commit, hcommit, hv⟩ := bind_eq_ok_iff.1 h
  have hkey : Reads readKey (.text e.key.text) e.key := (reads_string e.key.text).map SectionKey.mk
  have h1 : Takes stagedCommitRecord.takeMember (none, none) ("key", .text e.key.text)
      (some e.key, none) :=
    takes_member rfl rfl (hkey.map fun k => ((some k, none) : Option SectionKey × Option Commit))
  have h2 : Takes stagedCommitRecord.takeMember (some e.key, none) ("commit", commit)
      (some e.key, some e.commit) :=
    takes_member rfl rfl ((reads_commit hcommit).map fun c =>
      ((some e.key, some c) : Option SectionKey × Option Commit))
  rw [← Except.ok.inj hv]
  exact reads_record (.cons h1 (.cons h2 .nil)) rfl

/-- A document that spells a staging area holds the area's entries, and these are checked. -/
theorem decode_of_spells (h : stagingAreaValue a = .ok v) {t : List Char} (ht : Spells v t) :
    decodeStagingArea (t.map some) = (StagingArea.ofEntries a.entries).mapError
      fun err => ⟨.content (.refused err.message), none⟩ := by
  obtain ⟨vs, hvs, hv⟩ := bind_eq_ok_iff.1 h
  have hall : List.Forall₂ (Reads readStagedCommit) vs a.entries :=
    List.Forall₂.flip ((mapM_eq_ok_iff.1 hvs).imp fun _ _ he => reads_stagedCommit he)
  rw [← Except.ok.inj hv] at ht
  rw [decodeStagingArea, Json.decodeChecked_of_reads (reads_list hall) ht]
  cases StagingArea.ofEntries a.entries with
  | error err => rfl
  | ok b => rfl

/-- The bytes of a text are its characters again. -/
lemma source_ofList (t : List Char) : Utf8.source (Utf8.encode (String.ofList t)) = t.map some := by
  rw [Utf8.source_encode, String.toList_ofList]

/-- A staging area is read back from its document. -/
theorem decode_stagingArea (ha : a.WellFormed) (h : stagingAreaValue a = .ok v) :
    decodeStagingArea (Utf8.source (Utf8.encode v.prettyText)) = .ok a := by
  rw [Value.prettyText, source_ofList, decode_of_spells h (Json.spells_pretty v), ha.ofEntries]
  rfl

/-! ### What can be written -/

lemma stagedCommitValue_isOk_iff {e : StagedCommit} : (∃ v, stagedCommitValue e = .ok v) ↔
    ∀ x ∈ e.commit.toAdd.entries, ∃ v, uploadValue x.2 = .ok v := by
  rw [stagedCommitValue, bind_pure_isOk_iff, commitValue, bind_pure_isOk_iff, uploadsValue,
    bind_pure_isOk_iff, mapM_isOk_iff]
  exact forall₂_congr fun x _ => bind_pure_isOk_iff

/-- A staging area can be written if each of its uploads can. -/
lemma stagingAreaValue_isOk : (∃ v, stagingAreaValue a = .ok v) ↔
    ∀ e ∈ a.entries, ∀ x ∈ e.commit.toAdd.entries, ∃ v, uploadValue x.2 = .ok v := by
  rw [stagingAreaValue, bind_pure_isOk_iff, mapM_isOk_iff]
  exact forall₂_congr fun e _ => stagedCommitValue_isOk_iff

/-- The same, with the uploads as the operations that are staged. -/
theorem stagingAreaValue_isOk_iff (ha : a.WellFormed) :
    (∃ v, stagingAreaValue a = .ok v) ↔
      ∀ k n u, a.operation? k n = some (.add u) → ∃ v, uploadValue u = .ok v := by
  rw [stagingAreaValue_isOk]
  constructor
  · intro h k n u hop
    obtain ⟨c, hc, hn⟩ := Option.bind_eq_some_iff.1 hop
    refine h ⟨k, c⟩ (StagingArea.mem_of_find? hc) (n, u) ?_
    exact c.toAdd.get?_eq_some_iff.1 (Commit.operation?_eq_add_iff.1 hn)
  · intro h e he x hx
    refine h e.key x.1 x.2 ?_
    rw [StagingArea.operation?, StagingArea.find?_of_mem ha.distinct he]
    exact Commit.operation?_eq_add_iff.2 (e.commit.toAdd.get?_eq_some_iff.2 hx)

end Wire

end PackageStaging
