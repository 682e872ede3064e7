/-
# The section that an operation is sent with

A staging area finds its commits by key, and a form names the section that is cut out of the key.
For a section whose fields hold no `/` both are faithful: no other section gets at what is staged
for it, and what is staged for it is sent with it as the origin.  For any other section the key
leads elsewhere (`faithfully_keyed`).
-/
import PackageStaging.Proofs.Payload.ReadBack
import PackageStaging.Proofs.Staging.Edits

namespace PackageStaging

open StagingArea (Edit)

variable {α : Type} {a b : StagingArea} {k : SectionKey} {s : SectionAddress} {p : Patch}
  {bucket : Commit → NameMap α} {n : String}

/-! ### What stands in a bucket -/

/-- A bucket of commits: a patch is put over it name by name, and the empty commit has nothing in
it. -/
structure IsBucket (bucket : Commit → NameMap α) : Prop where
  overlay : ∀ c p, bucket (c.overlay p) = (bucket c).overlay (bucket (.ofPatch p))
  empty : bucket .empty = .empty

lemma isBucket_toDelete : IsBucket Commit.toDelete := ⟨fun _ _ => rfl, rfl⟩

lemma isBucket_toCopy : IsBucket Commit.toCopy := ⟨fun _ _ => rfl, rfl⟩

lemma isBucket_toMove : IsBucket Commit.toMove := ⟨fun _ _ => rfl, rfl⟩

namespace StagingArea

/-- The bucket gives the name this value in a commit whose key leads to the section. -/
def Listed (bucket : Commit → NameMap α) (a : StagingArea) (n : String) (o : SectionAddress)
    (v : α) : Prop :=
  ∃ e ∈ a.entries, e.origin = o ∧ (bucket e.commit).get? n = some v

lemma mem_deletions {o : SectionAddress} :
    (n, o) ∈ a.deletions ↔ a.Listed Commit.toDelete n o () := by
  simp only [deletions, Listed, List.mem_flatMap, List.mem_map, Prod.mk.injEq]
  refine exists_congr fun e => and_congr_right fun _ => ?_
  constructor
  · rintro ⟨m, hm, rfl, ho⟩
    exact ⟨ho, NameMap.mem_names_unit_iff.1 hm⟩
  · rintro ⟨ho, hget⟩
    exact ⟨n, NameMap.mem_names_unit_iff.2 hget, rfl, ho⟩

lemma mem_transfers {bucket : Commit → NameMap SectionAddress} {t : Transfer} :
    t ∈ a.transfers bucket ↔ a.Listed bucket t.name t.origin t.target := by
  obtain ⟨n, o, target⟩ := t
  simp only [transfers, Listed, List.mem_flatMap, List.mem_map, Transfer.mk.injEq]
  refine exists_congr fun e => and_congr_right fun _ => ?_
  constructor
  · rintro ⟨⟨m, v⟩, hm, rfl, ho, rfl⟩
    exact ⟨ho, (NameMap.get?_eq_some_iff _).2 hm⟩
  · rintro ⟨ho, hget⟩
    exact ⟨(n, target), (NameMap.get?_eq_some_iff _).1 hget, rfl, ho, rfl⟩

/-- After a patch is staged for a section, its operations are listed with the section, and what else
is listed was so before. -/
lemma listed_stage (hbucket : IsBucket bucket) (hs : s.KeyedBy k) (hb : a.stage s p = .ok b) :
    (∀ n v, (bucket (.ofPatch p)).get? n = some v → b.Listed bucket n s v) ∧
    ∀ n o v, b.Listed bucket n o v →
      a.Listed bucket n o v ∨ o = s ∧ (bucket (.ofPatch p)).get? n = some v := by
  -- under the key there is now the patch over what was there
  obtain ⟨merged, hputs, rfl⟩ := Edit.outcome_of_key (e := .stage s p) rfl hs.1 hb
  cases hputs
  have hget : ∀ n, (bucket (((a.find? k).getD .empty).overlay p)).get? n =
      ((bucket (.ofPatch p)).get? n).or ((bucket ((a.find? k).getD .empty)).get? n) := by
    intro n
    rw [hbucket.overlay, NameMap.get?_overlay]
  constructor
  · intro n v hv
    have hmerged : (bucket (((a.find? k).getD .empty).overlay p)).get? n = some v := by
      rw [hget, hv, Option.some_or]
    have hfilled : ¬(((a.find? k).getD .empty).overlay p).isEmpty = true := by
      intro hempty
      rw [Commit.eq_empty_of_isEmpty hempty, hbucket.empty, NameMap.get?_empty] at hmerged
      cases hmerged
    refine ⟨⟨k, ((a.find? k).getD .empty).overlay p⟩, mem_of_find? ?_, hs.2, hmerged⟩
    rw [find?_put, if_pos rfl, if_neg hfilled]
  · rintro n o v ⟨e, he, ho, hv⟩
    rcases mem_put he with he | ⟨rfl, -⟩
    · exact .inl ⟨e, he, ho, hv⟩
    · rw [hget, Option.or_eq_some_iff] at hv
      rcases hv with hv | ⟨-, hv⟩
      · exact .inr ⟨ho.symm.trans hs.2, hv⟩
      · -- the name was listed already, in the commit that the patch is put over
        cases hfind : a.find? k with
        | none =>
          rw [hfind, Option.getD_none, hbucket.empty, NameMap.get?_empty] at hv
          cases hv
        | some c =>
          rw [hfind, Option.getD_some] at hv
          exact .inl ⟨⟨k, c⟩, mem_of_find? hfind, ho, hv⟩

end StagingArea

/-! ### What is sent -/

/-- The names are among the deletions with the section as their origin, and any other deletions are
old ones. -/
structure AddsDeletions (s : SectionAddress) (names : NameSet)
    (old new : List (String × SectionAddress)) : Prop where
  added : ∀ n ∈ names.names, (n, s) ∈ new
  others : ∀ n o, (n, o) ∈ new → (n, o) ∈ old ∨ o = s ∧ n ∈ names.names

/-- The names are among the transfers with the section as their origin and with their targets, and
any other transfers are old ones. -/
structure AddsTransfers (s : SectionAddress) (targets : NameMap SectionAddress)
    (old new : List Transfer) : Prop where
  added : ∀ n t, targets.get? n = some t → ⟨n, s, t⟩ ∈ new
  others : ∀ t ∈ new, t ∈ old ∨ t.origin = s ∧ targets.get? t.name = some t.target

namespace StagingArea

lemma addsDeletions (hs : s.KeyedBy k) (hb : a.stage s p = .ok b) :
    AddsDeletions s (Commit.ofPatch p).toDelete a.deletions b.deletions := by
  obtain ⟨hadded, hothers⟩ := listed_stage isBucket_toDelete hs hb
  refine ⟨fun n hn => mem_deletions.2 (hadded n () (NameMap.mem_names_unit_iff.1 hn)), ?_⟩
  intro n o hmem
  exact (hothers n o () (mem_deletions.1 hmem)).imp mem_deletions.2
    (And.imp_right NameMap.mem_names_unit_iff.2)

lemma addsTransfers {bucket : Commit → NameMap SectionAddress} (hbucket : IsBucket bucket)
    (hs : s.KeyedBy k) (hb : a.stage s p = .ok b) :
    AddsTransfers s (bucket (.ofPatch p)) (a.transfers bucket) (b.transfers bucket) := by
  obtain ⟨hadded, hothers⟩ := listed_stage hbucket hs hb
  refine ⟨fun n t hget => mem_transfers.2 (hadded n t hget), fun t hmem => ?_⟩
  exact (hothers t.name t.origin t.target (mem_transfers.1 hmem)).imp_left mem_transfers.2

end StagingArea

/-- What is read off a form: the deletions, copies and moves of the patch have the section as their
origin, and any others were staged before. -/
structure SentFrom (s : SectionAddress) (p : Patch) (a : StagingArea) (form : Payload) :
    Prop where
  deletions : ∃ ds, form.deletions? = some ds ∧
    AddsDeletions s (Commit.ofPatch p).toDelete a.deletions ds
  copies : ∃ ts, form.copies? = some ts ∧ AddsTransfers s (Commit.ofPatch p).toCopy a.copies ts
  moves : ∃ ts, form.moves? = some ts ∧ AddsTransfers s (Commit.ofPatch p).toMove a.moves ts

lemma sentFrom {form : Payload} (hs : s.KeyedBy k) (hb : a.stage s p = .ok b)
    (hform : Payload.encode b = .ok form) : SentFrom s p a form where
  deletions :=
    ⟨b.deletions, (Payload.readBack hform).deletions, StagingArea.addsDeletions hs hb⟩
  copies :=
    ⟨b.copies, (Payload.readBack hform).copies, StagingArea.addsTransfers isBucket_toCopy hs hb⟩
  moves :=
    ⟨b.moves, (Payload.readBack hform).moves, StagingArea.addsTransfers isBucket_toMove hs hb⟩

/-- The key of a complete section leads back to it exactly if none of its fields holds a `/`.  Then
no other section has the key; edits for other sections leave what is staged for the section as it
is, and edits for the section what is staged for any other one; and what is staged for the section
is sent with it as the origin. -/
theorem faithfully_keyed (s : SectionAddress) (hs : s.isComplete = true) :
    (∃ k, s.key? = some k ∧ (k.address = s ↔ s.SlashFree)) ∧
    (SectionAddress.ofString s.text = s ↔ s.SlashFree) ∧
    (s.SlashFree →
      (∀ t, t.key? = s.key? → t = s) ∧
      (∀ (a : StagingArea) (es : List Edit),
        ((∀ e ∈ es, ∃ t, e.origin? = some t ∧ t ≠ s) → (a.edited es).get? s = a.get? s) ∧
        ∀ t, t ≠ s → (∀ e ∈ es, e.origin? = some s) → (a.edited es).get? t = a.get? t) ∧
      ∀ (a b : StagingArea) p form, a.stage s p = .ok b → Payload.encode b = .ok form →
        SentFrom s p a form) := by
  have hkey : s.key? = some ⟨s.text⟩ := SectionAddress.key?_eq_some_iff.2 ⟨hs, rfl⟩
  refine ⟨⟨_, hkey, SectionAddress.ofString_text_iff⟩, SectionAddress.ofString_text_iff, ?_⟩
  intro hfree
  have hsame : ∀ t k, t.key? = some k → s.key? = some k → t = s := fun t k ht hk =>
    hfree.eq_of_key? hk ht
  -- sections other than `s` have other keys, so no edit reaches across
  refine ⟨fun t ht => hsame t _ (ht.trans hkey) hkey, fun a es => ⟨fun hes => ?_, ?_⟩, ?_⟩
  · refine StagingArea.edited_induction (P := fun b => b.get? s = a.get? s) rfl ?_
    intro b e he hb
    obtain ⟨t, ht, hne⟩ := hes e he
    rw [Edit.get?_after ht fun k hk htk => hne (hsame t k htk hk), hb]
  · intro t hne hes
    refine StagingArea.edited_induction (P := fun b => b.get? t = a.get? t) rfl ?_
    intro b e he hb
    rw [Edit.get?_after (hes e he) fun k htk hk => hne (hsame t k htk hk), hb]
  · intro a b p form hb hform
    exact sentFrom (hfree.keyedBy hkey) hb hform

/-- A deletion in a section whose branch is no ASCII text. -/
theorem faithfully_keyed_delete :
    let s : SectionAddress := ⟨"st\u00e4ble", "core", "x86_64"⟩
    s.isComplete = true ∧ s.SlashFree ∧ (∀ t, t.key? = s.key? → t = s) ∧
      ∃ b form, StagingArea.empty.stage s (.delete ["foo"]) = .ok b ∧ Payload.encode b = .ok form ∧
        SentFrom s (.delete ["foo"]) .empty form := by
  intro s
  have hs : s.isComplete = true := by decide
  have hfree : s.SlashFree := ⟨by decide, by decide, by decide⟩
  obtain ⟨-, -, h⟩ := faithfully_keyed s hs
  obtain ⟨hunique, -, hsent⟩ := h hfree
  exact ⟨hs, hfree, hunique, _, _, rfl, rfl, hsent _ _ _ _ rfl rfl⟩

/-- Two sections of one key: what is staged for the first is there for the second, and is sent with
a third one as its origin. -/
theorem keyed_alike :
    let s : SectionAddress := ⟨"a/b", "c", "d"⟩
    let t : SectionAddress := ⟨"a", "b/c", "d"⟩
    s.isComplete = true ∧ t.isComplete = true ∧ s ≠ t ∧ s.key? = t.key? ∧
      SectionAddress.ofString s.text = ⟨"a", "b", "c"⟩ ∧
      ∃ b form, StagingArea.empty.stage s (.delete ["foo"]) = .ok b ∧
        b.get? t = some (.ofPatch (.delete ["foo"])) ∧ Payload.encode b = .ok form ∧
        form.deletions? = some [("foo", ⟨"a", "b", "c"⟩)] := by
  intro s t
  obtain ⟨form, hform⟩ : ∃ form,
      Payload.encode ⟨[⟨⟨"a/b/c/d"⟩, .ofPatch (.delete ["foo"])⟩]⟩ = .ok form := ⟨_, rfl⟩
  refine ⟨by decide, by decide, by decide, by decide, by decide, _, form, rfl, by decide, hform, ?_⟩
  rw [(Payload.readBack hform).deletions]
  decide

end PackageStaging
