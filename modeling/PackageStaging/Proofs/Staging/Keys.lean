/-
# Sections and their keys

The key of a section is its three fields joined by `/`, and a key is cut at `/` to find its
section.  This leads back to the section exactly if no field holds a `/`
(`SectionAddress.ofString_text_iff`); then no other section has the same key
(`SectionAddress.SlashFree.eq_of_key?`).  A key that is joined again as it was cut is a canonical
one: three parts, not empty and without `/` (`SectionKey.canonical_iff`).
-/
import Mathlib.Tactic.Lemma
import Mathlib.Tactic.SplitIfs
import PackageStaging.Section

namespace PackageStaging

namespace SectionAddress

variable {s t : SectionAddress} {k k' : SectionKey}

/-- No field holds the separator of keys. -/
structure SlashFree (s : SectionAddress) : Prop where
  branch : '/' ∉ s.branch.toList
  repository : '/' ∉ s.repository.toList
  architecture : '/' ∉ s.architecture.toList

lemma slashFree_ofString (t : String) : (ofString t).SlashFree := by
  have hfields := Text.not_mem_of_mem_fields '/' t.toList
  unfold ofString
  split
  · next b r a rest heq =>
    rw [heq] at hfields
    exact ⟨by simpa using hfields b (by simp), by simpa using hfields r (by simp),
      by simpa using hfields a (by simp)⟩
  · next b r heq =>
    rw [heq] at hfields
    exact ⟨by simpa using hfields b (by simp), by simpa using hfields r (by simp),
      List.not_mem_nil⟩
  · next b heq =>
    rw [heq] at hfields
    exact ⟨by simpa using hfields b (by simp), List.not_mem_nil, List.not_mem_nil⟩
  · exact ⟨List.not_mem_nil, List.not_mem_nil, List.not_mem_nil⟩

lemma isComplete_iff :
    s.isComplete = true ↔ s.branch ≠ "" ∧ s.repository ≠ "" ∧ s.architecture ≠ "" := by
  simp [isComplete, and_assoc]

lemma key?_eq_some_iff : s.key? = some k ↔ s.isComplete = true ∧ k = ⟨s.text⟩ := by
  rw [key?]
  split_ifs with h
  · simp [h, eq_comm]
  · simp [h]

/-- The text of a section is cut into the section exactly if no field holds a `/`. -/
lemma ofString_text_iff : ofString s.text = s ↔ s.SlashFree := by
  constructor
  · intro h
    rw [← h]
    exact slashFree_ofString s.text
  · intro h
    exact ofString_text s h.branch h.repository h.architecture

/-! ### Sections that are found by their key -/

/-- The section has this key, and is the section of the key. -/
def KeyedBy (s : SectionAddress) (k : SectionKey) : Prop := s.key? = some k ∧ k.address = s

lemma SlashFree.keyedBy (h : s.SlashFree) (hk : s.key? = some k) : s.KeyedBy k :=
  ⟨hk, address_key hk h.branch h.repository h.architecture⟩

/-- A complete section that was cut out of a text has a key. -/
lemma keyedBy_ofString {t : String} (h : (ofString t).isComplete = true) :
    ∃ k, (ofString t).KeyedBy k :=
  ⟨_, (slashFree_ofString t).keyedBy (key?_eq_some_iff.2 ⟨h, rfl⟩)⟩

lemma KeyedBy.address (h : s.KeyedBy k) : k.address.key? = some k := by
  rw [h.2]
  exact h.1

lemma KeyedBy.eq_iff (h : s.KeyedBy k) (h' : t.KeyedBy k') : t = s ↔ k' = k := by
  constructor
  · rintro rfl
    exact Option.some.inj (h'.1.symm.trans h.1)
  · rintro rfl
    exact h'.2.symm.trans h.2

/-- A key tells whether the fields of its section hold a `/`. -/
lemma slashFree_iff_count : s.SlashFree ↔ s.text.toList.count '/' = 2 := by
  have hcount : s.text.toList.count '/' = s.branch.toList.count '/' +
      s.repository.toList.count '/' + s.architecture.toList.count '/' + 2 := by
    simp [text, String.toList_append]
    omega
  rw [hcount]
  constructor
  · rintro ⟨hb, hr, ha⟩
    rw [List.count_eq_zero.2 hb, List.count_eq_zero.2 hr, List.count_eq_zero.2 ha]
  · intro h
    exact ⟨List.count_eq_zero.1 (by omega), List.count_eq_zero.1 (by omega),
      List.count_eq_zero.1 (by omega)⟩

/-- No other section has the key of a section without `/`. -/
lemma SlashFree.eq_of_key? (hs : s.SlashFree) (hk : s.key? = some k) (hk' : t.key? = some k) :
    t = s := by
  -- the key is the text of both sections, so `t` holds no `/` either
  have htext : t.text = s.text := by
    rw [← SectionKey.mk.injEq, ← (key?_eq_some_iff.1 hk).2, ← (key?_eq_some_iff.1 hk').2]
  have ht : t.SlashFree := by rwa [slashFree_iff_count, htext, ← slashFree_iff_count]
  exact ((hs.keyedBy hk).eq_iff (ht.keyedBy hk')).2 rfl

end SectionAddress

namespace SectionKey

open SectionAddress

/-- The key is three parts joined by `/`, of which none is empty or holds a `/`. -/
def Canonical (k : SectionKey) : Prop :=
  ∃ b r a : String, (∀ part ∈ [b, r, a], part ≠ "" ∧ '/' ∉ part.toList) ∧
    k.text = b ++ "/" ++ r ++ "/" ++ a

/-- A key is canonical exactly if cutting it and joining the parts gives the key again. -/
lemma canonical_iff {k : SectionKey} : k.Canonical ↔ k.address.key? = some k := by
  constructor
  · rintro ⟨b, r, a, hparts, htext⟩
    obtain ⟨hb, hr, ha⟩ : (b ≠ "" ∧ '/' ∉ b.toList) ∧ (r ≠ "" ∧ '/' ∉ r.toList) ∧
        (a ≠ "" ∧ '/' ∉ a.toList) := by simpa using hparts
    have hkey : (⟨b, r, a⟩ : SectionAddress).key? = some k :=
      key?_eq_some_iff.2 ⟨isComplete_iff.2 ⟨hb.1, hr.1, ha.1⟩, by rw [SectionAddress.text, ← htext]⟩
    have hfree : (⟨b, r, a⟩ : SectionAddress).SlashFree := ⟨hb.2, hr.2, ha.2⟩
    exact (hfree.keyedBy hkey).address
  · intro h
    obtain ⟨hcomplete, htext⟩ := key?_eq_some_iff.1 h
    obtain ⟨hb, hr, ha⟩ := isComplete_iff.1 hcomplete
    have hfree : k.address.SlashFree := slashFree_ofString k.text
    refine ⟨k.address.branch, k.address.repository, k.address.architecture, ?_,
      congrArg SectionKey.text htext⟩
    simp only [List.mem_cons, List.not_mem_nil, or_false, forall_eq_or_imp, forall_eq]
    exact ⟨⟨hb, hfree.branch⟩, ⟨hr, hfree.repository⟩, ⟨ha, hfree.architecture⟩⟩

end SectionKey

end PackageStaging
