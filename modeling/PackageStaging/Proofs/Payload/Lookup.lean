/-
# Looking up the fields of a form

The names of the fields of an encoded form depend on the number of its packages only (`fields_eq`):
there are three for each number, counted from one and written without a zero in front, and three for
the lists.  A field leads to the value of its own part, and any other text leads to nothing
(`Unambiguous`).
-/
import PackageStaging.Proofs.Payload.Fields

namespace PackageStaging.Payload

variable {a : StagingArea} {p : Payload} {n : Nat} {f : String}

/-! ### The names of the fields -/

/-- The fields of the package with this number. -/
def packageFields (number : Nat) : List String :=
  ["filepath", "signature", "section"].map (packageField number)

lemma fields_numberedParts (k : Nat) (us : List ReadyUpload) :
    (numberedParts k us).map Part.field = (List.range' k us.length).flatMap packageFields := by
  induction us generalizing k with
  | nil => rfl
  | cons u us ih =>
    have hfirst : (packageParts k u).map Part.field = packageFields k := rfl
    rw [numberedParts, List.map_append, ih, hfirst, List.length_cons, List.range'_succ,
      List.flatMap_cons]

/-- The fields of an encoded form, in the order in which they are sent. -/
lemma fields_eq (h : encode a = .ok p) : p.fields =
    (List.range' 1 p.packageCount).flatMap packageFields ++ ["to_delete", "to_copy", "to_move"] := by
  obtain ⟨ready, -, rfl⟩ := encode_eq_ok_iff.1 h
  rw [fields, List.map_append, fields_numberedParts]
  rfl

lemma mem_fields_iff (h : encode a = .ok p) : f ∈ p.fields ↔
    (∃ n item, (1 ≤ n ∧ n ≤ p.packageCount) ∧ f = packageField n item ∧
      item ∈ ["filepath", "signature", "section"]) ∨ f ∈ ["to_delete", "to_copy", "to_move"] := by
  rw [fields_eq h, List.mem_append, List.mem_flatMap]
  refine or_congr_left (exists_congr fun n => ?_)
  rw [List.mem_range'_1, packageFields, List.mem_map, Nat.add_comm, Nat.lt_succ_iff]
  constructor
  · rintro ⟨hn, item, hitem, rfl⟩
    exact ⟨item, hn, rfl, hitem⟩
  · rintro ⟨item, hn, rfl, hitem⟩
    exact ⟨hn, item, hitem, rfl⟩

lemma length_files_numberedParts (k : Nat) (us : List ReadyUpload) :
    ((numberedParts k us).filterMap Part.file?).length = 2 * us.length := by
  induction us generalizing k with
  | nil => rfl
  | cons u us ih =>
    have hfirst : (packageParts k u).filterMap Part.file? = [u.file, u.signature] := rfl
    rw [numberedParts, List.filterMap_append, hfirst, List.length_append, ih]
    simp only [List.length_cons, List.length_nil]
    omega

/-! ### Other texts -/

/-- A number that is not zero is written without a zero in front. -/
lemma head?_toDigits_ne_zero (hn : 0 < n) : (Nat.toDigits 10 n).head? ≠ some '0' := by
  induction n using Nat.strongRecOn with
  | _ n ih =>
    by_cases hlt : n < 10
    · have hdigit : ∀ d < 10, 0 < d → d.digitChar ≠ '0' := by decide
      rw [Nat.toDigits_of_lt_base hlt]
      simpa using hdigit n hlt hn
    · -- the first digit is that of the number without the last one
      rw [Nat.toDigits_of_base_le (by decide) (by omega), List.head?_append_of_ne_nil _ (by simp)]
      exact ih (n / 10) (by omega) (by omega)

/-- The field of a package does not go on with a zero. -/
lemma packageField_ne_zero (hn : 0 < n) (item rest : String) :
    packageField n item ≠ "package0" ++ rest := by
  intro h
  have hlist := congrArg String.toList h
  have hzero : ("package0" ++ rest).toList = "package".toList ++ '0' :: rest.toList := by
    simp [String.toList_append]
  rw [toList_packageField, hzero, List.append_assoc] at hlist
  have hhead := congrArg List.head? (List.append_cancel_left hlist)
  rw [Nat.toList_repr, List.head?_append_of_ne_nil _ (by simp)] at hhead
  exact head?_toDigits_ne_zero hn hhead

/-- No field leads to more than one part, and each to its own. -/
structure Unambiguous (p : Payload) : Prop where
  /-- No field occurs twice. -/
  distinct : p.fields.Nodup
  /-- There are three fields for each package, and three for the lists. -/
  length_fields : p.fields.length = 3 * p.packageCount + 3
  /-- There are two files for each package. -/
  length_artifacts : p.artifacts.length = 2 * p.packageCount
  /-- The field of a file leads to this file and to no text. -/
  ofFile : ∀ field artifact, .file field artifact ∈ p.parts →
    p.file? field = some artifact ∧ p.text? field = none
  /-- The field of a text leads to this text and to no file. -/
  ofText : ∀ field value, .text field value ∈ p.parts →
    p.text? field = some value ∧ p.file? field = none
  /-- What is no field leads to nothing. -/
  nothing : ∀ field, field ∉ p.fields → p.text? field = none ∧ p.file? field = none
  /-- No package has a number beyond that of the last one. -/
  beyond : ∀ number item, p.packageCount < number → packageField number item ∉ p.fields
  /-- No package has the number zero or a number that is written with a zero in front. -/
  zero : ∀ rest, "package0" ++ rest ∉ p.fields

/-- The fields of an encoded form are looked up without ambiguity. -/
theorem fields_unambiguous (h : encode a = .ok p) : Unambiguous p where
  distinct := nodup_fields h
  length_fields := by
    rw [fields_eq h, List.length_append, List.length_flatMap]
    simp [packageFields, Nat.mul_comm]
  length_artifacts := by
    obtain ⟨ready, -, rfl⟩ := encode_eq_ok_iff.1 h
    have hclosing : (closingParts a).filterMap Part.file? = [] := rfl
    rw [artifacts, List.filterMap_append, hclosing, List.append_nil, length_files_numberedParts]
  ofFile field artifact hmem :=
    ⟨file?_of_mem (nodup_fields h) hmem, findSome?_of_mem Part.text? (nodup_fields h) hmem⟩
  ofText field value hmem :=
    ⟨text?_of_mem (nodup_fields h) hmem, findSome?_of_mem Part.file? (nodup_fields h) hmem⟩
  nothing field hfield := by
    have hother : ∀ part ∈ p.parts, part.field ≠ field := fun part hpart heq =>
      hfield (heq ▸ List.mem_map_of_mem hpart)
    rw [text?, file?, List.findSome?_eq_none_iff, List.findSome?_eq_none_iff]
    exact ⟨fun part hpart => if_neg (hother part hpart), fun part hpart =>
      if_neg (hother part hpart)⟩
  beyond number item hlt hmem := by
    rcases (mem_fields_iff h).1 hmem with ⟨n, item', ⟨-, hle⟩, hfield, -⟩ | hmem
    · have hn := (packageField_inj hfield).1
      omega
    · obtain ⟨hdelete, hcopy, hmove⟩ := packageField_ne number item
      simp [hdelete, hcopy, hmove] at hmem
  zero rest hmem := by
    rcases (mem_fields_iff h).1 hmem with ⟨n, item, ⟨hpos, -⟩, hfield, -⟩ | hmem
    · exact packageField_ne_zero hpos item rest hfield.symm
    · have hp : ("package0" ++ rest).toList.head? = some 'p' := by simp [String.toList_append]
      obtain ⟨hdelete, hcopy, hmove⟩ := ne_closing hp
      simp [hdelete, hcopy, hmove] at hmem

/-- Two uploads in two sections. -/
theorem fields_unambiguous_two :
    let upload (name : String) (target : SectionAddress) : Upload :=
      ⟨name, target, some ⟨.ofString ("/p/" ++ name)⟩, some ⟨.ofString ("/p/" ++ name ++ ".sig")⟩⟩
    let area : StagingArea :=
      ⟨[⟨⟨"stable/core/x86_64"⟩, .ofPatch (.add (.ofList
          [("gcc", upload "gcc" ⟨"stable", "core", "x86_64"⟩)]))⟩,
        ⟨⟨"stable/extra/x86_64"⟩, .ofPatch (.add (.ofList
          [("vim", upload "vim" ⟨"stable", "extra", "x86_64"⟩)]))⟩]⟩
    ∃ p, encode area = .ok p ∧ p.packageCount = 2 ∧ p.fields.length = 9 ∧
      p.file? "package2.signature" = some ⟨.ofString "/p/vim.sig"⟩ ∧
      p.text? "package2.signature" = none ∧ p.file? "package3.signature" = none ∧
      p.file? "package02.signature" = none := by
  intro upload area
  obtain ⟨p, hp⟩ : ∃ p, encode area = .ok p := ⟨_, rfl⟩
  have hcount : p.packageCount = 2 := by
    cases hp
    rfl
  have hunambiguous := fields_unambiguous hp
  have hsignature : .file "package2.signature" ⟨.ofString "/p/vim.sig"⟩ ∈ p.parts := by
    cases hp
    decide +kernel
  obtain ⟨hfile, htext⟩ := hunambiguous.ofFile _ _ hsignature
  refine ⟨p, hp, hcount, ?_, hfile, htext, ?_, ?_⟩
  · rw [hunambiguous.length_fields, hcount]
  · exact (hunambiguous.nothing _ (hunambiguous.beyond 3 "signature" (by omega))).2
  · exact (hunambiguous.nothing _ (hunambiguous.zero "2.signature")).2

end PackageStaging.Payload
