/-
# The fields of a form

No field of an encoded form occurs twice, so a field is found wherever its part stands
(`file?_of_mem`, `text?_of_mem`).  The names of the fields are told apart by their number, which
is cut off at the first point.
-/
import Std.Data.String.ToNat
import PackageStaging.Proofs.Payload.Encoding
import PackageStaging.Text.Fields

namespace PackageStaging.Payload

variable {parts : List Part} {part : Part} {us : List ReadyUpload} {u : ReadyUpload}
  {n m k : Nat} {item item' f : String}

/-! ### Names of fields -/

lemma toList_packageField (n : Nat) (item : String) :
    (packageField n item).toList = ("package".toList ++ n.repr.toList) ++ '.' :: item.toList := by
  have hn : toString n = n.repr := rfl
  simp [packageField, String.toList_append, hn]

/-- The number of a package holds no point. -/
lemma point_not_mem_number (n : Nat) : '.' ∉ "package".toList ++ n.repr.toList := by
  intro h
  rcases List.mem_append.1 h with h | h
  · exact absurd h (by decide)
  · rw [Nat.toList_repr] at h
    exact absurd (Nat.isDigit_of_mem_toDigits (by decide) (by decide) h) (by decide)

/-- The field of a package tells its number and what it holds. -/
lemma packageField_inj (h : packageField n item = packageField m item') :
    n = m ∧ item = item' := by
  have hlist := congrArg String.toList h
  rw [toList_packageField, toList_packageField] at hlist
  have hfields := congrArg (Text.fields '.') hlist
  rw [Text.fields_append_cons _ _ _ (point_not_mem_number n),
    Text.fields_append_cons _ _ _ (point_not_mem_number m)] at hfields
  have hnumber := List.append_cancel_left (List.cons.inj hfields).1
  have hnm : n = m := Nat.repr_injective (String.toList_inj.1 hnumber)
  subst hnm
  have hitem := (List.cons.inj (List.append_cancel_left hlist)).2
  exact ⟨rfl, String.toList_inj.1 hitem⟩

/-- The fields of the lists begin with another letter than those of the packages. -/
lemma ne_closing (hp : f.toList.head? = some 'p') :
    f ≠ "to_delete" ∧ f ≠ "to_copy" ∧ f ≠ "to_move" := by
  refine ⟨?_, ?_, ?_⟩
  all_goals
    rintro rfl
    exact absurd hp (by decide)

lemma packageField_ne (n : Nat) (item : String) : packageField n item ≠ "to_delete" ∧
    packageField n item ≠ "to_copy" ∧ packageField n item ≠ "to_move" :=
  ne_closing (by rw [toList_packageField]; rfl)

/-! ### The numbered packages -/

lemma mem_numberedParts :
    part ∈ numberedParts k us ↔ ∃ i u, us[i]? = some u ∧ part ∈ packageParts (k + i) u := by
  induction us generalizing k with
  | nil => simp [numberedParts]
  | cons v vs ih =>
    rw [numberedParts, List.mem_append, ih]
    constructor
    · rintro (h | ⟨i, u, hi, h⟩)
      · exact ⟨0, v, rfl, h⟩
      · refine ⟨i + 1, u, by rw [List.getElem?_cons_succ, hi], ?_⟩
        rwa [Nat.add_right_comm] at h
    · rintro ⟨i, u, hi, h⟩
      cases i with
      | zero => exact .inl (Option.some.inj hi ▸ h)
      | succ i =>
        rw [List.getElem?_cons_succ] at hi
        refine .inr ⟨i, u, hi, ?_⟩
        rwa [Nat.add_right_comm]

lemma field_of_mem_packageParts (h : part ∈ packageParts n u) :
    ∃ item, part.field = packageField n item := by
  simp only [packageParts, List.mem_cons, List.not_mem_nil, or_false] at h
  rcases h with rfl | rfl | rfl
  · exact ⟨_, rfl⟩
  · exact ⟨_, rfl⟩
  · exact ⟨_, rfl⟩

/-- The packages are numbered without a gap. -/
lemma number_of_mem_numberedParts (h : part ∈ numberedParts k us) :
    ∃ n item, part.field = packageField n item ∧ k ≤ n ∧ n < k + us.length := by
  obtain ⟨i, u, hi, hpart⟩ := mem_numberedParts.1 h
  obtain ⟨item, hitem⟩ := field_of_mem_packageParts hpart
  obtain ⟨hlt, -⟩ := List.getElem?_eq_some_iff.1 hi
  exact ⟨k + i, item, hitem, by omega, by omega⟩

lemma nodup_packageParts (n : Nat) (u : ReadyUpload) :
    ((packageParts n u).map Part.field).Nodup := by
  have hne : ∀ {i j : String}, i ≠ j → packageField n i ≠ packageField n j :=
    fun hij h => hij (packageField_inj h).2
  have h1 := hne (i := "filepath") (j := "signature") (by decide)
  have h2 := hne (i := "filepath") (j := "section") (by decide)
  have h3 := hne (i := "signature") (j := "section") (by decide)
  simp [packageParts, Part.field, h1, h2, h3]

lemma nodup_numberedParts (k : Nat) (us : List ReadyUpload) :
    ((numberedParts k us).map Part.field).Nodup := by
  induction us generalizing k with
  | nil => exact List.nodup_nil
  | cons u us ih =>
    rw [numberedParts, List.map_append, List.nodup_append]
    refine ⟨nodup_packageParts k u, ih (k + 1), ?_⟩
    rintro f hf g hg rfl
    obtain ⟨part, hpart, rfl⟩ := List.mem_map.1 hf
    obtain ⟨part', hpart', hfield⟩ := List.mem_map.1 hg
    obtain ⟨item, hitem⟩ := field_of_mem_packageParts hpart
    obtain ⟨n, item', hitem', hle, -⟩ := number_of_mem_numberedParts hpart'
    have hsame : packageField n item' = packageField k item := by
      rw [← hitem', ← hitem, hfield]
    have := (packageField_inj hsame).1
    omega

/-- No field of an encoded form occurs twice. -/
theorem nodup_fields {a : StagingArea} {p : Payload} (h : encode a = .ok p) : p.fields.Nodup := by
  obtain ⟨ready, -, rfl⟩ := encode_eq_ok_iff.1 h
  rw [fields, List.map_append, List.nodup_append]
  refine ⟨nodup_numberedParts 1 ready, ?_, ?_⟩
  · simp [closingParts, Part.field]
  · rintro f hf g hg rfl
    obtain ⟨part, hpart, rfl⟩ := List.mem_map.1 hf
    obtain ⟨n, item, hitem, -, -⟩ := number_of_mem_numberedParts hpart
    obtain ⟨hdelete, hcopy, hmove⟩ := packageField_ne n item
    rw [hitem] at hg
    simp [closingParts, Part.field, hdelete, hcopy, hmove] at hg

/-! ### Looking up a field -/

/-- In a list of different fields, a part is found by its field. -/
lemma findSome?_of_mem {β : Type} (g : Part → Option β) (hnodup : (parts.map Part.field).Nodup)
    (hmem : part ∈ parts) :
    (parts.findSome? fun q => if q.field = part.field then g q else none) = g part := by
  induction parts with
  | nil => exact absurd hmem List.not_mem_nil
  | cons q qs ih =>
    rw [List.map_cons, List.nodup_cons] at hnodup
    obtain ⟨hq, hqs⟩ := hnodup
    rw [List.findSome?_cons]
    rcases List.mem_cons.1 hmem with rfl | hmem
    · rw [if_pos rfl]
      cases hg : g part with
      | some b => rfl
      | none =>
        rw [List.findSome?_eq_none_iff]
        intro q' hq'
        have hne : q'.field ≠ part.field := fun h => hq (h ▸ List.mem_map_of_mem hq')
        rw [if_neg hne]
    · have hne : q.field ≠ part.field := fun h => hq (h ▸ List.mem_map_of_mem hmem)
      rw [if_neg hne]
      exact ih hqs hmem

variable {p : Payload}

lemma file?_of_mem (hnodup : p.fields.Nodup) {artifact : Artifact}
    (hmem : .file f artifact ∈ p.parts) : p.file? f = some artifact :=
  findSome?_of_mem Part.file? hnodup hmem

lemma text?_of_mem (hnodup : p.fields.Nodup) {value : String}
    (hmem : .text f value ∈ p.parts) : p.text? f = some value :=
  findSome?_of_mem Part.text? hnodup hmem

end PackageStaging.Payload
