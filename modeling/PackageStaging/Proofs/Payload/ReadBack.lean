/-
# A form is read back

Whoever gets an encoded form can read off it what was staged: the packages in order with their
files, signatures and sections, and the deletions, copies and moves with the sections that they
are staged in (`encode_readBack`).  The names and sections are whatever texts they are; the lists
are read by readers of the same kind as those for files.
-/
import PackageStaging.Proofs.Payload.Fields
import PackageStaging.Proofs.Wire.Sections

namespace PackageStaging.Payload

open Json (Reader Reads Record Takes reads_list reads_record reads_string takes_member)
open Wire (readSection reads_section)

/-! ### Readers -/

/-- The fields of a deletion that have been read. -/
structure DeletionFields where
  name : Option String
  origin : Option SectionAddress

/-- A deletion: the name of the package and the section that it is staged in. -/
def deletionRecord : Record DeletionFields (String × SectionAddress) where
  wanted := Json.structName "Deletion"
  members := [
    { key := "name", present := (·.name.isSome), mayEnd := false,
      read := fun σ s => do let (v, s) ← Json.string s; return ({ σ with name := v }, s) },
    { key := "section", present := (·.origin.isSome), mayEnd := false,
      read := fun σ s => do let (v, s) ← readSection s; return ({ σ with origin := v }, s) }]
  blank := ⟨none, none⟩
  finish := fun σ => do
    return (← Json.required "name" σ.name, ← Json.required "section" σ.origin)

/-- The fields of a transfer that have been read. -/
structure TransferFields where
  name : Option String
  origin : Option SectionAddress
  target : Option SectionAddress

/-- A transfer: the name of the package, where it is and where it goes. -/
def transferRecord : Record TransferFields Transfer where
  wanted := Json.structName "Transfer"
  members := [
    { key := "name", present := (·.name.isSome), mayEnd := false,
      read := fun σ s => do let (v, s) ← Json.string s; return ({ σ with name := v }, s) },
    { key := "from_section", present := (·.origin.isSome), mayEnd := false,
      read := fun σ s => do let (v, s) ← readSection s; return ({ σ with origin := v }, s) },
    { key := "to_section", present := (·.target.isSome), mayEnd := false,
      read := fun σ s => do let (v, s) ← readSection s; return ({ σ with target := v }, s) }]
  blank := ⟨none, none, none⟩
  finish := fun σ => do
    let name ← Json.required "name" σ.name
    let origin ← Json.required "from_section" σ.origin
    let target ← Json.required "to_section" σ.target
    return ⟨name, origin, target⟩

/-- What a field holds as JSON. -/
def read? {α : Type} (p : Payload) (field : String) (r : Reader α) : Option α := do
  let text ← p.text? field
  (Json.decode r (Utf8.sourceOfString text)).toOption

/-- The package of a number. -/
def package? (p : Payload) (number : Nat) : Option ReadyUpload := do
  let file ← p.file? (packageField number "filepath")
  let signature ← p.file? (packageField number "signature")
  let target ← p.read? (packageField number "section") readSection
  return ⟨file, signature, target⟩

/-- The deletions. -/
def deletions? (p : Payload) : Option (List (String × SectionAddress)) :=
  p.read? "to_delete" (Json.list deletionRecord.read)

/-- The copies. -/
def copies? (p : Payload) : Option (List Transfer) :=
  p.read? "to_copy" (Json.list transferRecord.read)

/-- The moves. -/
def moves? (p : Payload) : Option (List Transfer) :=
  p.read? "to_move" (Json.list transferRecord.read)

/-! ### What the readers read -/

variable {a : StagingArea} {p : Payload}

lemma reads_deletion (d : String × SectionAddress) :
    Reads deletionRecord.read (.object [("name", .text d.1), ("section", Wire.sectionValue d.2)])
      d := by
  have hname : Takes deletionRecord.takeMember ⟨none, none⟩ ("name", .text d.1) ⟨some d.1, none⟩ :=
    takes_member rfl rfl ((reads_string d.1).map fun t => (⟨some t, none⟩ : DeletionFields))
  have horigin : Takes deletionRecord.takeMember ⟨some d.1, none⟩
      ("section", Wire.sectionValue d.2) ⟨some d.1, some d.2⟩ :=
    takes_member rfl rfl ((reads_section d.2).map fun s => (⟨some d.1, some s⟩ : DeletionFields))
  exact reads_record (.cons hname (.cons horigin .nil)) rfl

lemma reads_transfer (t : Transfer) :
    Reads transferRecord.read (.object [("name", .text t.name),
      ("from_section", Wire.sectionValue t.origin), ("to_section", Wire.sectionValue t.target)])
      t := by
  have hname : Takes transferRecord.takeMember ⟨none, none, none⟩ ("name", .text t.name)
      ⟨some t.name, none, none⟩ :=
    takes_member rfl rfl
      ((reads_string t.name).map fun n => (⟨some n, none, none⟩ : TransferFields))
  have horigin : Takes transferRecord.takeMember ⟨some t.name, none, none⟩
      ("from_section", Wire.sectionValue t.origin) ⟨some t.name, some t.origin, none⟩ :=
    takes_member rfl rfl
      ((reads_section t.origin).map fun s => (⟨some t.name, some s, none⟩ : TransferFields))
  have htarget : Takes transferRecord.takeMember ⟨some t.name, some t.origin, none⟩
      ("to_section", Wire.sectionValue t.target) ⟨some t.name, some t.origin, some t.target⟩ :=
    takes_member rfl rfl ((reads_section t.target).map fun s =>
      (⟨some t.name, some t.origin, some s⟩ : TransferFields))
  exact reads_record (.cons hname (.cons horigin (.cons htarget .nil))) rfl

lemma reads_deletions (ds : List (String × SectionAddress)) :
    Reads (Json.list deletionRecord.read) (deletionsValue ds) ds := by
  refine reads_list ?_
  induction ds with
  | nil => exact .nil
  | cons d ds ih => exact .cons (reads_deletion d) ih

lemma reads_transfers (ts : List Transfer) :
    Reads (Json.list transferRecord.read) (transfersValue ts) ts := by
  refine reads_list ?_
  induction ts with
  | nil => exact .nil
  | cons t ts ih => exact .cons (reads_transfer t) ih

/-- A field that holds the text of a value is read as the value. -/
lemma read?_of_mem {α : Type} {r : Reader α} {v : Json.Value} {x : α} {f : String}
    (hnodup : p.fields.Nodup) (hmem : .text f v.compactText ∈ p.parts) (hreads : Reads r v x) :
    p.read? f r = some x := by
  rw [read?, text?_of_mem hnodup hmem]
  change (Json.decode r (Utf8.sourceOfString v.compactText)).toOption = some x
  rw [Json.decode_compactText hreads]
  rfl

/-! ### The main result -/

/-- What is read off the form of a staging area. -/
structure ReadBack (a : StagingArea) (p : Payload) : Prop where
  /-- No field occurs twice. -/
  fields : p.fields.Nodup
  /-- There are as many packages as uploads are staged. -/
  count : p.packageCount = (a.entries.flatMap fun e => e.commit.toAdd.entries).length
  /-- The package of each number, from one on, is the upload at its place, section by section and
  name by name. -/
  package : ∀ i e, (a.entries.flatMap fun e => e.commit.toAdd.entries)[i]? = some e →
    ∃ file signature, e.2.file = some file ∧ e.2.signature = some signature ∧
      p.package? (i + 1) = some ⟨file, signature, e.2.target⟩
  /-- There are no other packages. -/
  numbers : ∀ number item, packageField number item ∈ p.fields →
    1 ≤ number ∧ number ≤ p.packageCount
  /-- The deletions, section by section and name by name, with the section of the entry's key. -/
  deletions : p.deletions? = some (a.entries.flatMap fun e =>
    e.commit.toDelete.names.map fun n => (n, e.key.address))
  /-- The copies, with where from and where to. -/
  copies : p.copies? = some (a.entries.flatMap fun e =>
    e.commit.toCopy.entries.map fun t => ⟨t.1, e.key.address, t.2⟩)
  /-- The moves, with where from and where to. -/
  moves : p.moves? = some (a.entries.flatMap fun e =>
    e.commit.toMove.entries.map fun t => ⟨t.1, e.key.address, t.2⟩)

/-- What is sent of the uploads, in order. -/
def sentUploads (a : StagingArea) : List (Option Artifact × Option Artifact × SectionAddress) :=
  a.uploads.map fun e => (e.2.file, e.2.signature, e.2.target)

lemma ready?_eq_some {u : Upload} {ready : ReadyUpload} (h : u.ready? = some ready) :
    u.file = some ready.file ∧ u.signature = some ready.signature ∧ u.target = ready.target := by
  unfold Upload.ready? at h
  split at h
  · next hfile hsignature =>
    split at h
    · rw [← Option.some.inj h]
      exact ⟨hfile, hsignature, rfl⟩
    · exact nomatch h
  · exact nomatch h

/-- The upload at each place is ready, and its parts are sent under the number of the place. -/
lemma parts_of_upload (h : encode a = .ok p) {i : Nat} {e : String × Upload}
    (he : a.uploads[i]? = some e) :
    ∃ u, e.2.ready? = some u ∧ ∀ part ∈ packageParts (i + 1) u, part ∈ p.parts := by
  obtain ⟨ready, hready, rfl⟩ := encode_eq_ok_iff.1 h
  have hplace : (a.uploads.map fun e => e.2.ready?)[i]? = some e.2.ready? := by
    rw [List.getElem?_map, he]
    rfl
  rw [hready, List.getElem?_map] at hplace
  obtain ⟨u, hu, hsome⟩ := Option.map_eq_some_iff.1 hplace
  refine ⟨u, hsome.symm, fun part hpart => ?_⟩
  rw [Nat.add_comm] at hpart
  exact List.mem_append_left _ (mem_numberedParts.2 ⟨i, u, hu, hpart⟩)

lemma readBack (h : encode a = .ok p) : ReadBack a p := by
  have hnodup := nodup_fields h
  have hcount := packageCount_of_encode h
  have hpackage := fun {i : Nat} {e : String × Upload} => parts_of_upload (i := i) (e := e) h
  obtain ⟨ready, hready, rfl⟩ := encode_eq_ok_iff.1 h
  have hclosing : ∀ part ∈ closingParts a, part ∈ numberedParts 1 ready ++ closingParts a :=
    fun part hpart => List.mem_append_right _ hpart
  refine ⟨hnodup, hcount, ?_, ?_, ?_, ?_, ?_⟩
  · intro i e he
    obtain ⟨u, hu, hparts⟩ := hpackage he
    obtain ⟨hfile, hsignature, htarget⟩ := ready?_eq_some hu
    refine ⟨u.file, u.signature, hfile, hsignature, ?_⟩
    rw [package?, file?_of_mem hnodup (hparts _ (.head _)),
      file?_of_mem hnodup (hparts _ (.tail _ (.head _))),
      read?_of_mem hnodup (hparts _ (.tail _ (.tail _ (.head _)))) (reads_section u.target),
      htarget]
    rfl
  · intro number item hmem
    obtain ⟨part, hpart, hfield⟩ := List.mem_map.1 hmem
    rcases List.mem_append.1 hpart with hpart | hpart
    · obtain ⟨n, item', hitem, hle, hlt⟩ := number_of_mem_numberedParts hpart
      have hn := (packageField_inj (hitem.symm.trans hfield)).1
      subst hn
      exact ⟨hle, by change n ≤ ready.length; omega⟩
    · obtain ⟨hdelete, hcopy, hmove⟩ := packageField_ne number item
      simp only [closingParts, List.mem_cons, List.not_mem_nil, or_false] at hpart
      rcases hpart with rfl | rfl | rfl
      · exact absurd hfield.symm hdelete
      · exact absurd hfield.symm hcopy
      · exact absurd hfield.symm hmove
  · exact read?_of_mem hnodup (hclosing _ (.head _)) (reads_deletions a.deletions)
  · exact read?_of_mem hnodup (hclosing _ (.tail _ (.head _))) (reads_transfers a.copies)
  · exact read?_of_mem hnodup (hclosing _ (.tail _ (.tail _ (.head _)))) (reads_transfers a.moves)

variable {b : StagingArea}

/-- What is read off a form determines what is sent of the uploads. -/
lemma ReadBack.sentUploads_eq (ha : ReadBack a p) (hb : ReadBack b p) :
    sentUploads b = sentUploads a := by
  have hlength : b.uploads.length = a.uploads.length := hb.count.symm.trans ha.count
  unfold sentUploads
  refine List.ext_getElem (by rw [List.length_map, List.length_map, hlength]) ?_
  intro i hib hia
  rw [List.length_map] at hib hia
  rw [List.getElem_map, List.getElem_map]
  obtain ⟨file, signature, hfile, hsignature, hpackage⟩ :=
    ha.package i a.uploads[i] (List.getElem?_eq_getElem hia)
  obtain ⟨file', signature', hfile', hsignature', hpackage'⟩ :=
    hb.package i b.uploads[i] (List.getElem?_eq_getElem hib)
  have hsame := Option.some.inj (hpackage'.symm.trans hpackage)
  injection hsame with hf hs ht
  rw [hfile, hsignature, hfile', hsignature', hf, hs, ht]

/-- Everything that is staged is read off the form, once and in order; so staging areas with the
same form have staged the same. -/
theorem encode_readBack (h : encode a = .ok p) :
    ReadBack a p ∧ ∀ b, encode b = .ok p →
      b.deletions = a.deletions ∧ b.copies = a.copies ∧ b.moves = a.moves ∧
        sentUploads b = sentUploads a := by
  have ha := readBack h
  refine ⟨ha, fun b hb => ?_⟩
  have hb := readBack hb
  refine ⟨?_, ?_, ?_, ha.sentUploads_eq hb⟩
  · exact Option.some.inj (hb.deletions.symm.trans ha.deletions)
  · exact Option.some.inj (hb.copies.symm.trans ha.copies)
  · exact Option.some.inj (hb.moves.symm.trans ha.moves)

/-- One upload, one deletion and one move, in two sections. -/
theorem encode_readBack_three :
    let core : SectionAddress := ⟨"stable", "core", "x86_64"⟩
    let upload : Upload :=
      ⟨"a \"b\"", core, some ⟨.ofString "/p/a.pkg"⟩, some ⟨.ofString "/p/a.pkg.sig"⟩⟩
    let area : StagingArea :=
      ⟨[⟨⟨"stable/core/x86_64"⟩, .ofPatch { Patch.add (.ofList [("a", upload)]) with
          toDelete := some (.ofNames ["x"]) }⟩,
        ⟨⟨"stable/extra/x86_64"⟩, .ofPatch (.move ["\u00e9\n"] core)⟩]⟩
    ∃ p, encode area = .ok p ∧ p.package? 1 = some ⟨⟨.ofString "/p/a.pkg"⟩,
      ⟨.ofString "/p/a.pkg.sig"⟩, core⟩ := by
  intro core upload area
  refine ⟨_, rfl, ?_⟩
  obtain ⟨file, signature, hfile, hsignature, hpackage⟩ :=
    (encode_readBack (a := area) rfl).1.package 0 ("a", upload) rfl
  rw [hpackage, ← Option.some.inj hfile, ← Option.some.inj hsignature]

end PackageStaging.Payload
