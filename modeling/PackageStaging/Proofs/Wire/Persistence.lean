/-
# A staging area that is kept and read again

A staging area has a document if the paths of its files are text (`stagingAreaValue_isOk_iff_text`),
and the document, written in either way, is read back as the same area if staging can make the area.
In turn, every document that is read, whoever wrote it, holds such an area.  So what is written for
it is read back, and reading and writing again changes nothing more (`persistence_roundTrip`).
-/
import PackageStaging.Proofs.Json.Yields
import PackageStaging.Proofs.Staging.Loading
import PackageStaging.Proofs.Wire.Staged

namespace PackageStaging

/-- The bytes of the path spell a text. -/
def Path.IsText (p : Path) : Prop := ∃ t : String, p = .ofString t

/-- The paths of the package file and of the signature, if there are any, are text. -/
structure Upload.TextPaths (u : Upload) : Prop where
  file : ∀ f, u.file = some f → f.path.IsText
  signature : ∀ f, u.signature = some f → f.path.IsText

/-- The paths of all files to be uploaded are text. -/
def Commit.TextPaths (c : Commit) : Prop := ∀ x ∈ c.toAdd.entries, x.2.TextPaths

/-- The paths of all files to be uploaded are text. -/
def StagingArea.TextPaths (a : StagingArea) : Prop := ∀ e ∈ a.entries, e.commit.TextPaths

lemma Path.isText_iff {p : Path} : p.IsText ↔ ∃ t, p.text? = some t := by
  constructor
  · rintro ⟨t, rfl⟩
    exact ⟨t, Utf8.decode?_encode t⟩
  · rintro ⟨t, ht⟩
    refine ⟨t, ?_⟩
    rw [Path.ofString, Utf8.encode_of_decode? ht]

/-- The entries of the map of a list are in the list. -/
lemma NameMap.mem_of_mem_ofList {α : Type} {l : List (String × α)} {e : String × α}
    (h : e ∈ (ofList l).entries) : e ∈ l := by
  suffices ∀ m : NameMap α, e ∈ (m.insertAll l).entries → e ∈ m.entries ∨ e ∈ l from
    (this empty h).resolve_left List.not_mem_nil
  clear h
  induction l with
  | nil => exact fun m hm => .inl hm
  | cons x l ih =>
    intro m hm
    -- an entry that was put in over the map so far is the one of the list or an older one
    rcases ih (m.insert x.1 x.2) hm with hplace | hl
    · rcases mem_place hplace with rfl | hold
      · exact .inr (.head _)
      · exact .inl hold
    · exact .inr (.tail _ hl)

namespace Wire

open Json (Value Yields yields_any yields_list yields_namedValues yields_nullable yields_record)

variable {a : StagingArea}

/-! ### What can be written -/

lemma artifactOrNull_isOk {o : Option Artifact} :
    (∃ v, artifactOrNull o = .ok v) ↔ ∀ f, o = some f → f.path.IsText := by
  cases o with
  | none => simp [artifactOrNull]
  | some f =>
    simp only [Option.some.injEq, forall_eq', Path.isText_iff, artifactOrNull, artifactValue]
    cases f.path.text? with
    | none => simp
    | some t => simp

lemma uploadValue_isOk {u : Upload} : (∃ v, uploadValue u = .ok v) ↔ u.TextPaths := by
  have hboth : (∃ v, uploadValue u = .ok v) ↔
      (∃ v, artifactOrNull u.file = .ok v) ∧ ∃ v, artifactOrNull u.signature = .ok v := by
    constructor
    · rintro ⟨v, hv⟩
      obtain ⟨file, hfile, hrest⟩ := bind_eq_ok_iff.1 hv
      obtain ⟨signature, hsignature, -⟩ := bind_eq_ok_iff.1 hrest
      exact ⟨⟨file, hfile⟩, signature, hsignature⟩
    · rintro ⟨⟨file, hfile⟩, signature, hsignature⟩
      exact ⟨_, bind_eq_ok_iff.2 ⟨file, hfile, bind_eq_ok_iff.2 ⟨signature, hsignature, rfl⟩⟩⟩
  rw [hboth, artifactOrNull_isOk, artifactOrNull_isOk]
  exact ⟨fun h => ⟨h.1, h.2⟩, fun h => ⟨h.file, h.signature⟩⟩

/-- A staging area can be written exactly if the paths of its files are text. -/
theorem stagingAreaValue_isOk_iff_text : (∃ v, stagingAreaValue a = .ok v) ↔ a.TextPaths := by
  rw [stagingAreaValue_isOk]
  exact forall₂_congr fun e _ => forall₂_congr fun x _ => uploadValue_isOk

/-! ### What can be read -/

lemma yields_artifact : Yields readArtifact fun f => f.path.IsText := by
  refine yields_record (I := fun σ : Option Path => ∀ p, σ = some p → p.IsText) ?_ ?_ ?_
  · intro p hp
    exact nomatch hp
  · intro m hm σ _
    rw [List.mem_singleton.1 hm]
    exact (yields_any (Json.stringAs "path string")).map (fun t => some (Path.ofString t))
      fun t _ p hp => ⟨t, (Option.some.inj hp).symm⟩
  · intro σ f hσ hf
    obtain ⟨p, hp, hpure⟩ := bind_eq_ok_iff.1 hf
    rw [← Except.ok.inj hpure]
    exact hσ p (Json.required_eq_ok_iff.1 hp)

/-- The fields that have been read name files by text. -/
structure UploadFields.TextPaths (σ : UploadFields) : Prop where
  file : ∀ f, σ.file = some (some f) → f.path.IsText
  signature : ∀ f, σ.signature = some (some f) → f.path.IsText

lemma yields_upload : Yields readUpload Upload.TextPaths := by
  refine yields_record (I := UploadFields.TextPaths) ⟨?_, ?_⟩ ?_ ?_
  · intro f hf
    exact nomatch hf
  · intro f hf
    exact nomatch hf
  · intro m hm σ hσ
    simp only [uploadRecord, List.mem_cons, List.not_mem_nil, or_false] at hm
    rcases hm with rfl | rfl | rfl | rfl
    · refine (yields_any Json.string).map (fun t => { σ with name := some t }) fun _ _ => ?_
      exact ⟨hσ.file, hσ.signature⟩
    · refine (yields_any readSection).map (fun s => { σ with target := some s }) fun _ _ => ?_
      exact ⟨hσ.file, hσ.signature⟩
    · refine (yields_nullable yields_artifact).map (fun o => { σ with file := some o }) ?_
      exact fun o ho => ⟨fun f hf => ho f (Option.some.inj hf), hσ.signature⟩
    · refine (yields_nullable yields_artifact).map (fun o => { σ with signature := some o }) ?_
      exact fun o ho => ⟨hσ.file, fun f hf => ho f (Option.some.inj hf)⟩
  · intro σ u hσ hu
    obtain ⟨name, -, hrest⟩ := bind_eq_ok_iff.1 hu
    obtain ⟨target, -, hpure⟩ := bind_eq_ok_iff.1 hrest
    rw [← Except.ok.inj hpure]
    exact ⟨fun f hf => hσ.file f (Option.join_eq_some_iff.1 hf),
      fun f hf => hσ.signature f (Option.join_eq_some_iff.1 hf)⟩

lemma yields_nameMap {α : Type} {r : Json.Reader α} {P : α → Prop} (h : Yields r P) :
    Yields (readNameMap r) fun m => ∀ e ∈ m.entries, P e.2 :=
  (yields_namedValues h).map NameMap.ofList fun _ hes e he => hes e (NameMap.mem_of_mem_ofList he)

lemma yields_commit : Yields readCommit Commit.TextPaths := by
  refine yields_record
    (I := fun σ : Patch => ∀ m, σ.toAdd = some m → ∀ x ∈ m.entries, x.2.TextPaths) ?_ ?_ ?_
  · intro m hm
    exact nomatch hm
  · intro m hm σ hσ
    simp only [commitRecord, List.mem_cons, List.not_mem_nil, or_false] at hm
    rcases hm with rfl | rfl | rfl | rfl
    · refine (yields_nameMap yields_upload).map (fun m => { σ with toAdd := some m }) ?_
      intro m hm m' hm'
      rwa [← Option.some.inj hm']
    · refine (yields_any readNames).map (fun m => { σ with toDelete := some m }) ?_
      exact fun _ _ => hσ
    · refine (yields_any (readNameMap readSection)).map (fun m => { σ with toCopy := some m }) ?_
      exact fun _ _ => hσ
    · refine (yields_any (readNameMap readSection)).map (fun m => { σ with toMove := some m }) ?_
      exact fun _ _ => hσ
  · intro σ c hσ hc x hx
    -- without the member the bucket is empty
    rw [← Except.ok.inj hc] at hx
    cases hadd : σ.toAdd with
    | none =>
      rw [Commit.ofPatch, hadd] at hx
      exact absurd hx List.not_mem_nil
    | some m =>
      rw [Commit.ofPatch, hadd] at hx
      exact hσ m hadd x hx

lemma yields_stagedCommit : Yields readStagedCommit fun e => e.commit.TextPaths := by
  refine yields_record (I := fun σ : Option SectionKey × Option Commit =>
    ∀ c, σ.2 = some c → c.TextPaths) ?_ ?_ ?_
  · intro c hc
    exact nomatch hc
  · intro m hm σ hσ
    simp only [stagedCommitRecord, List.mem_cons, List.not_mem_nil, or_false] at hm
    rcases hm with rfl | rfl
    · exact (yields_any readKey).map (fun k => (some k, σ.2)) fun _ _ => hσ
    · refine yields_commit.map (fun c => (σ.1, some c)) fun c hc c' hc' => ?_
      rwa [← Option.some.inj hc']
  · intro σ e hσ he
    obtain ⟨k, -, hrest⟩ := bind_eq_ok_iff.1 he
    obtain ⟨c, hc, hpure⟩ := bind_eq_ok_iff.1 hrest
    rw [← Except.ok.inj hpure]
    exact hσ c (Json.required_eq_ok_iff.1 hc)

/-- A document that is read holds an area that staging can make, whose paths are text. -/
theorem decodeStagingArea_eq_ok {doc : Json.Source} (h : decodeStagingArea doc = .ok a) :
    a.WellFormed ∧ a.TextPaths := by
  obtain ⟨es, rest, hread, hcheck⟩ := Json.decodeChecked_eq_ok h
  cases hes : StagingArea.ofEntries es with
  | error err =>
    rw [hes] at hcheck
    exact nomatch hcheck
  | ok b =>
    rw [hes] at hcheck
    obtain ⟨hwf, hb⟩ := StagingArea.ofEntries_eq_ok_iff.1 hes
    rw [← Except.ok.inj hcheck, hb]
    exact ⟨hwf, yields_list yields_stagedCommit doc es rest hread⟩

/-! ### Writing and reading -/

/-- The area can be written, and `r` comes of reading the text without any space and of reading the
one with a line for each member. -/
def ReadsAs (a : StagingArea) (r : Except Json.Fault StagingArea) : Prop :=
  ∃ v, stagingAreaValue a = .ok v ∧
    decodeStagingArea (Utf8.source (Utf8.encode v.compactText)) = r ∧
    decodeStagingArea (Utf8.source (Utf8.encode v.prettyText)) = r

/-- The area can be written and is read back. -/
def ReadsBack (a : StagingArea) : Prop := ReadsAs a (.ok a)

/-- What is read is the check of the area's entries. -/
lemma readsAs (h : a.TextPaths) : ReadsAs a ((StagingArea.ofEntries a.entries).mapError
    fun err => ⟨.content (.refused err.message), none⟩) := by
  obtain ⟨v, hv⟩ := stagingAreaValue_isOk_iff_text.2 h
  refine ⟨v, hv, ?_, ?_⟩
  · rw [Value.compactText, source_ofList, decode_of_spells hv (Json.spells_compact v)]
  · rw [Value.prettyText, source_ofList, decode_of_spells hv (Json.spells_pretty v)]

/-- An area is read back exactly if staging can make it and the paths of its files are text. -/
lemma readsBack_iff : ReadsBack a ↔ a.WellFormed ∧ a.TextPaths := by
  constructor
  · rintro ⟨v, -, -, hpretty⟩
    exact decodeStagingArea_eq_ok hpretty
  · rintro ⟨hwf, htext⟩
    have hread := readsAs htext
    rwa [hwf.ofEntries] at hread

/-- The document that is kept for the staging area of another document. -/
def rewritten (doc : Json.Source) : Except Json.Fault Json.Source := do
  let v ← stagingAreaValue (← decodeStagingArea doc)
  return Utf8.source (Utf8.encode v.prettyText)

/-- A staging area that staging can make and whose paths are text is read back from what is written
for it; every document that is read holds such an area, and is rewritten once and for all. -/
theorem persistence_roundTrip :
    (∀ a : StagingArea, a.WellFormed → a.TextPaths → ReadsBack a) ∧
    ∀ doc a, decodeStagingArea doc = .ok a → a.WellFormed ∧ a.TextPaths ∧ ReadsBack a ∧
      ∃ d, rewritten doc = .ok d ∧ decodeStagingArea d = .ok a ∧ rewritten d = .ok d := by
  refine ⟨fun a hwf htext => readsBack_iff.2 ⟨hwf, htext⟩, fun doc a hdoc => ?_⟩
  obtain ⟨hwf, htext⟩ := decodeStagingArea_eq_ok hdoc
  have hback : ReadsBack a := readsBack_iff.2 ⟨hwf, htext⟩
  obtain ⟨v, hv, -, hpretty⟩ := id hback
  -- both documents hold the same area, so the same is written for them
  have hrewritten : ∀ d, decodeStagingArea d = .ok a →
      rewritten d = .ok (Utf8.source (Utf8.encode v.prettyText)) := by
    intro d hd
    exact bind_eq_ok_iff.2 ⟨a, hd, bind_eq_ok_iff.2 ⟨v, hv, rfl⟩⟩
  exact ⟨hwf, htext, hback, _, hrewritten doc hdoc, hpretty, hrewritten _ hpretty⟩

end Wire

end PackageStaging
