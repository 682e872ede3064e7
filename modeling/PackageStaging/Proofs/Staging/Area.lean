/-
# The staging area as a map

A staging area that staging can produce (`StagingArea.WellFormed`) is a finite map from keys of
sections and names to operations (`StagingArea.operation?`).  Each operation on it is described by
what it does to this map: unstaging takes out what it names (`unstage_spec`, `unstageAll_spec`,
`unstageSection_spec`), and a batch wins over whatever was staged for its packages
(`restage_spec`).
-/
import PackageStaging.Proofs.Outcome
import PackageStaging.Proofs.Staging.Operations

namespace PackageStaging.StagingArea

/-- What holds of a staging area that is made by staging: sections lead to their keys, no key
occurs twice, and commits have operations and each name in one bucket. -/
structure WellFormed (a : StagingArea) : Prop where
  keys : ∀ e ∈ a.entries, e.origin.key? = some e.key
  distinct : (a.entries.map (·.key)).Nodup
  filled : ∀ e ∈ a.entries, e.commit.isEmpty = false
  sole : ∀ e ∈ a.entries, e.commit.Sole

variable {a b : StagingArea} {k k' : SectionKey} {c : Commit} {s : SectionAddress}
  {n m : String} {ns : List String}

lemma wellFormed_empty : WellFormed empty where
  keys _ he := absurd he List.not_mem_nil
  distinct := List.nodup_nil
  filled _ he := absurd he List.not_mem_nil
  sole _ he := absurd he List.not_mem_nil

lemma eq_empty_of_isEmpty (h : a.isEmpty = true) : a = empty := by
  obtain ⟨l⟩ := a
  rw [isEmpty, List.isEmpty_iff] at h
  exact congrArg StagingArea.mk h

/-- What staging has made is accepted. -/
lemma checkEntries_eq_ok {es : List StagedCommit} {seen : List SectionKey}
    (hkeys : ∀ e ∈ es, e.origin.key? = some e.key) (hdistinct : (es.map (·.key)).Nodup)
    (hseen : ∀ e ∈ es, e.key ∉ seen) (hfilled : ∀ e ∈ es, e.commit.isEmpty = false)
    (hsole : ∀ e ∈ es, e.commit.Sole) : checkEntries seen es = .ok () := by
  induction es generalizing seen with
  | nil => rfl
  | cons e es ih =>
    rw [List.map_cons, List.nodup_cons] at hdistinct
    rw [checkEntries, if_neg (by rw [hkeys e (.head _)]; simp), if_neg (hseen e (.head _)),
      if_neg (by rw [hfilled e (.head _)]; simp), Commit.conflict?_eq_none.2 (hsole e (.head _))]
    refine ih (fun e' he' => hkeys e' (.tail _ he')) hdistinct.2 ?_
      (fun e' he' => hfilled e' (.tail _ he')) fun e' he' => hsole e' (.tail _ he')
    intro e' he' hmem
    rcases List.mem_cons.1 hmem with hsame | hmem
    · exact hdistinct.1 (List.mem_map.2 ⟨e', he', hsame⟩)
    · exact hseen e' (.tail _ he') hmem

theorem WellFormed.ofEntries (h : a.WellFormed) : StagingArea.ofEntries a.entries = .ok a := by
  rw [StagingArea.ofEntries, checkEntries_eq_ok h.keys h.distinct (fun _ _ => List.not_mem_nil)
    h.filled h.sole]
  rfl

/-! ### Looking up a key -/

lemma mem_of_find? (h : a.find? k = some c) : ⟨k, c⟩ ∈ a.entries := by
  obtain ⟨e, he, rfl⟩ := Option.map_eq_some_iff.1 h
  have hk : e.key = k := by simpa using List.find?_some he
  rw [← hk]
  exact List.mem_of_find?_eq_some he

lemma find?_of_mem (hdistinct : (a.entries.map (·.key)).Nodup) {e : StagedCommit}
    (he : e ∈ a.entries) : a.find? e.key = some e.commit := by
  obtain ⟨l⟩ := a
  induction l with
  | nil => exact absurd he List.not_mem_nil
  | cons e' es ih =>
    rw [List.map_cons, List.nodup_cons] at hdistinct
    rw [find?, List.find?_cons]
    rcases List.mem_cons.1 he with rfl | he
    · simp
    · have hne : e'.key ≠ e.key := fun hk => hdistinct.1 (List.mem_map.2 ⟨e, he, hk.symm⟩)
      rw [decide_eq_false hne]
      exact ih hdistinct.2 he

lemma find?_eraseKey (a : StagingArea) (k k' : SectionKey) :
    (a.eraseKey k).find? k' = if k' = k then none else a.find? k' := by
  obtain ⟨l⟩ := a
  unfold eraseKey find?
  induction l with
  | nil => simp
  | cons e es ih =>
    by_cases he : e.key = k
    · rw [List.filter_cons_of_neg (by simp [he]), ih]
      split_ifs with hk
      · rfl
      · rw [List.find?_cons_of_neg (by simp [he, Ne.symm hk])]
    · rw [List.filter_cons_of_pos (by simp [he])]
      by_cases hk' : e.key = k'
      · rw [List.find?_cons_of_pos (by simp [hk']), List.find?_cons_of_pos (by simp [hk']), if_neg]
        exact fun h => he (hk'.trans h)
      · rw [List.find?_cons_of_neg (by simp [hk']), List.find?_cons_of_neg (by simp [hk']), ih]

lemma find?_replaceFirst (k k' : SectionKey) (c : Commit) (es : List StagedCommit)
    (h : (es.any fun e => e.key = k) = true) :
    (StagingArea.mk (replaceFirst k c es)).find? k' =
      if k' = k then some c else (StagingArea.mk es).find? k' := by
  unfold find?
  induction es with
  | nil => exact nomatch h
  | cons e es ih =>
    rw [replaceFirst]
    by_cases he : e.key = k
    · rw [if_pos he]
      by_cases hk : k' = k
      · rw [if_pos hk, List.find?_cons_of_pos (by simp [he, hk])]
        rfl
      · have hne : e.key ≠ k' := fun h => hk (h.symm.trans he)
        rw [if_neg hk, List.find?_cons_of_neg (by simp [hne]),
          List.find?_cons_of_neg (by simp [hne])]
    · rw [if_neg he]
      have hrest : (es.any fun e => e.key = k) = true := by simpa [he] using h
      by_cases hk' : e.key = k'
      · have hne : k' ≠ k := fun h => he (hk'.trans h)
        rw [List.find?_cons_of_pos (by simp [hk']), if_neg hne,
          List.find?_cons_of_pos (by simp [hk'])]
      · rw [List.find?_cons_of_neg (by simp [hk']), ih hrest,
          List.find?_cons_of_neg (by simp [hk'])]

/-- The commit under a key after `put`: the new one, if it has operations. -/
lemma find?_put (a : StagingArea) (k k' : SectionKey) (c : Commit) :
    (a.put k c).find? k' =
      if k' = k then (if c.isEmpty then none else some c) else a.find? k' := by
  unfold put
  by_cases hc : c.isEmpty = true
  · rw [if_pos hc, if_pos hc, find?_eraseKey]
  · rw [if_neg hc, if_neg hc]
    split_ifs with hany hk hk
    · rw [find?_replaceFirst k k' c a.entries hany, if_pos hk]
    · rw [find?_replaceFirst k k' c a.entries hany, if_neg hk]
    · have hnone : (a.entries.find? fun e => e.key = k') = none := by
        rw [List.find?_eq_none]
        intro e he hek
        exact hany (List.any_eq_true.2 ⟨e, he, by simpa [hk] using hek⟩)
      rw [find?, List.find?_append, hnone, Option.none_or, List.find?_cons_of_pos (by simp [hk])]
      rfl
    · rw [find?, List.find?_append, List.find?_cons_of_neg (by simp [Ne.symm hk]), List.find?_nil,
        Option.or_none, find?]

lemma find?_eq_none_iff : a.find? k = none ↔ ∀ e ∈ a.entries, e.key ≠ k := by
  rw [find?, Option.map_eq_none_iff, List.find?_eq_none]
  simp

/-- A commit under a new key comes last. -/
lemma put_of_new (hc : c.isEmpty = false) (hnew : ∀ e ∈ a.entries, e.key ≠ k) :
    a.put k c = ⟨a.entries ++ [⟨k, c⟩]⟩ := by
  rw [put, if_neg (by simp [hc]), if_neg]
  rw [List.any_eq_true]
  rintro ⟨e, he, hek⟩
  exact hnew e he (by simpa using hek)

/-! ### Keeping an area well formed -/

lemma map_key_replaceFirst (k : SectionKey) (c : Commit) (es : List StagedCommit) :
    (replaceFirst k c es).map (·.key) = es.map (·.key) := by
  induction es with
  | nil => rfl
  | cons e es ih =>
    rw [replaceFirst]
    split_ifs
    · rfl
    · rw [List.map_cons, List.map_cons, ih]

lemma mem_replaceFirst {e : StagedCommit} {es : List StagedCommit}
    (h : e ∈ replaceFirst k c es) : e ∈ es ∨ e = ⟨k, c⟩ := by
  induction es with
  | nil => exact absurd h List.not_mem_nil
  | cons e' es ih =>
    rw [replaceFirst] at h
    split_ifs at h with he'
    · rcases List.mem_cons.1 h with rfl | h
      · exact .inr (by rw [he'])
      · exact .inl (.tail _ h)
    · rcases List.mem_cons.1 h with rfl | h
      · exact .inl (.head _)
      · exact (ih h).imp_left (.tail _)

lemma WellFormed.of_sublist {l l' : List StagedCommit} (h : WellFormed ⟨l⟩)
    (hsub : l'.Sublist l) : WellFormed ⟨l'⟩ where
  keys e he := h.keys e (hsub.mem he)
  distinct := h.distinct.sublist (hsub.map _)
  filled e he := h.filled e (hsub.mem he)
  sole e he := h.sole e (hsub.mem he)

lemma WellFormed.eraseKey (h : a.WellFormed) (k : SectionKey) : (a.eraseKey k).WellFormed :=
  h.of_sublist List.filter_sublist

/-- The entries after `put` are old ones or the one that was put. -/
lemma mem_put {e : StagedCommit} (h : e ∈ (a.put k c).entries) :
    e ∈ a.entries ∨ e = ⟨k, c⟩ ∧ c.isEmpty = false := by
  unfold put at h
  split_ifs at h with hempty hany
  · exact .inl (List.mem_filter.1 h).1
  · exact (mem_replaceFirst h).imp_right fun he => ⟨he, eq_false_of_ne_true hempty⟩
  · rcases List.mem_append.1 h with h | h
    · exact .inl h
    · exact .inr ⟨List.mem_singleton.1 h, eq_false_of_ne_true hempty⟩

lemma nodup_put (h : (a.entries.map (·.key)).Nodup) (k : SectionKey) (c : Commit) :
    ((a.put k c).entries.map (·.key)).Nodup := by
  unfold put
  split_ifs with hempty hany
  · exact h.sublist (List.filter_sublist.map _)
  · rw [map_key_replaceFirst]
    exact h
  · rw [List.map_append, List.nodup_append]
    refine ⟨h, List.nodup_singleton _, ?_⟩
    -- no entry has the new key, or it would have been replaced
    rintro k' hk' _ hnew rfl
    obtain ⟨e, he, rfl⟩ := List.mem_map.1 hk'
    have hek : e.key = k := List.mem_singleton.1 hnew
    exact hany (List.any_eq_true.2 ⟨e, he, by simpa using hek⟩)

lemma WellFormed.put (h : a.WellFormed) (hk : k.address.key? = some k) (hc : c.Sole) :
    (a.put k c).WellFormed where
  keys e he := by
    rcases mem_put he with he | ⟨rfl, -⟩
    · exact h.keys e he
    · exact hk
  distinct := nodup_put h.distinct k c
  filled e he := by
    rcases mem_put he with he | ⟨rfl, hfilled⟩
    · exact h.filled e he
    · exact hfilled
  sole e he := by
    rcases mem_put he with he | ⟨rfl, -⟩
    · exact h.sole e he
    · exact hc

/-! ### The map of operations -/

/-- The operation of a name under a key. -/
def operation? (a : StagingArea) (k : SectionKey) (n : String) : Option Operation :=
  (a.find? k).bind fun c => c.operation? n

lemma sole_of_find? (h : a.WellFormed) (hc : a.find? k = some c) : c.Sole :=
  h.sole ⟨k, c⟩ (mem_of_find? hc)

lemma key_of_find? (h : a.WellFormed) (hc : a.find? k = some c) : k.address.key? = some k :=
  h.keys ⟨k, c⟩ (mem_of_find? hc)

/-- After `put` the operations under the key are those of the commit. -/
lemma operation?_put (a : StagingArea) (k k' : SectionKey) (c : Commit) (n : String) :
    (a.put k c).operation? k' n = if k' = k then c.operation? n else a.operation? k' n := by
  rw [operation?, find?_put]
  split_ifs with hk hc
  · exact ((Commit.isEmpty_iff.1 hc) n).symm
  · rfl
  · rfl

/-- Something is staged under a key exactly when there is a commit. -/
lemma find?_isSome_iff (h : a.WellFormed) :
    (a.find? k).isSome ↔ ∃ n op, a.operation? k n = some op := by
  constructor
  · intro hsome
    obtain ⟨c, hc⟩ := Option.isSome_iff_exists.1 hsome
    have hfilled := h.filled ⟨k, c⟩ (mem_of_find? hc)
    by_contra hnone
    have hempty : c.isEmpty = true := by
      rw [Commit.isEmpty_iff]
      intro n
      by_contra hn
      obtain ⟨op, hop⟩ := Option.ne_none_iff_exists'.1 hn
      exact hnone ⟨n, op, by rw [operation?, hc]; exact hop⟩
    rw [hempty] at hfilled
    exact nomatch hfilled
  · rintro ⟨n, op, hop⟩
    obtain ⟨c, hc, -⟩ := Option.bind_eq_some_iff.1 hop
    rw [hc]
    rfl

/-! ### Unstaging -/

lemma get?_of_key? (hs : s.key? = some k) (a : StagingArea) : a.get? s = a.find? k := by
  rw [get?, hs]
  rfl

/-- A name is taken out if it has an operation. -/
lemma unstage_eq (hs : s.key? = some k) (a : StagingArea) (n : String) :
    a.unstage s n = match (a.find? k).bind fun c => c.remove? n with
      | some (_, c) => .ok (a.put k c)
      | none => .error (.notStagedIn n s) := by
  rw [unstage, get?_of_key? hs]
  cases hr : (a.find? k).bind fun c => c.remove? n with
  | none => rfl
  | some r =>
    simp only [setCommit, requireKey, hs]
    rfl

theorem unstage_spec (h : a.WellFormed) (hs : s.key? = some k) (hb : a.unstage s n = .ok b) :
    b.WellFormed ∧ (a.operation? k n).isSome ∧
      ∀ k' m, b.operation? k' m = if k' = k ∧ m = n then none else a.operation? k' m := by
  rw [unstage_eq hs] at hb
  split at hb
  · next act d hr =>
    obtain ⟨c, hc, hremove⟩ := Option.bind_eq_some_iff.1 hr
    obtain ⟨act', hact, hd⟩ := Option.map_eq_some_iff.1 hremove
    obtain ⟨rfl, rfl⟩ := Prod.mk.inj hd
    have hsole := sole_of_find? h hc
    rw [← Except.ok.inj hb]
    refine ⟨h.put (key_of_find? h hc) (hsole.without n act'), ?_, ?_⟩
    · rw [operation?, hc]
      rw [Commit.actionOf_eq] at hact
      obtain ⟨op, hop, -⟩ := Option.map_eq_some_iff.1 hact
      change (c.operation? n).isSome
      rw [hop]
      rfl
    · intro k' m
      rw [operation?_put, Commit.operation?_without hsole (Commit.holds_of_actionOf hact)]
      by_cases hk : k' = k
      · rw [if_pos hk, hk, operation?, hc]
        simp
      · rw [if_neg hk, if_neg (fun hboth => hk hboth.1)]
  · exact nomatch hb

/-- What has an operation can be unstaged. -/
lemma unstage_isOk (hs : s.key? = some k) (hop : (a.operation? k n).isSome) :
    ∃ b, a.unstage s n = .ok b := by
  obtain ⟨op, hop⟩ := Option.isSome_iff_exists.1 hop
  obtain ⟨c, hc, hn⟩ := Option.bind_eq_some_iff.1 hop
  rw [unstage_eq hs, hc]
  have hremove : c.remove? n = some (op.action, c.without n op.action) := by
    rw [Commit.remove?, Commit.actionOf_eq, hn]
    rfl
  exact ⟨_, by rw [Option.bind_some, hremove]⟩

/-- Names are unstaged together exactly when they are different and all of them are staged. -/
theorem unstageAll_isOk_iff (h : a.WellFormed) (hs : s.key? = some k) :
    (∃ b, a.unstageAll s ns = .ok b) ↔ ns.Nodup ∧ ∀ n ∈ ns, (a.operation? k n).isSome := by
  induction ns generalizing a with
  | nil => simp [unstageAll]
  | cons n ns ih =>
    constructor
    · rintro ⟨b, hb⟩
      obtain ⟨c, hc, hrest⟩ := bind_eq_ok_iff.1 hb
      obtain ⟨hwf, hn, hmap⟩ := unstage_spec h hs hc
      obtain ⟨hnodup, hall⟩ := (ih hwf).1 ⟨b, hrest⟩
      refine ⟨List.nodup_cons.2 ⟨fun hmem => ?_, hnodup⟩, fun m hm => ?_⟩
      · have hagain := hall n hmem
        rw [hmap, if_pos ⟨rfl, rfl⟩] at hagain
        exact nomatch hagain
      · rcases List.mem_cons.1 hm with rfl | hm
        · exact hn
        · have hstaged := hall m hm
          rw [hmap] at hstaged
          split_ifs at hstaged
          · exact nomatch hstaged
          · exact hstaged
    · rintro ⟨hnodup, hall⟩
      rw [List.nodup_cons] at hnodup
      obtain ⟨c, hc⟩ := unstage_isOk hs (hall n (.head _))
      obtain ⟨hwf, -, hmap⟩ := unstage_spec h hs hc
      have hrest : ∀ m ∈ ns, (c.operation? k m).isSome := by
        intro m hm
        have hne : m ≠ n := fun hmn => hnodup.1 (hmn ▸ hm)
        rw [hmap, if_neg (fun hboth => hne hboth.2)]
        exact hall m (.tail _ hm)
      obtain ⟨b, hb⟩ := (ih hwf).2 ⟨hnodup.2, hrest⟩
      exact ⟨b, bind_eq_ok_iff.2 ⟨c, hc, hb⟩⟩

theorem unstageAll_spec (h : a.WellFormed) (hs : s.key? = some k)
    (hb : a.unstageAll s ns = .ok b) :
    b.WellFormed ∧
      ∀ k' m, b.operation? k' m = if k' = k ∧ m ∈ ns then none else a.operation? k' m := by
  induction ns generalizing a with
  | nil =>
    rw [← Except.ok.inj hb]
    exact ⟨h, fun k' m => by simp⟩
  | cons n ns ih =>
    obtain ⟨c, hc, hrest⟩ := bind_eq_ok_iff.1 hb
    obtain ⟨hwf, -, hmap⟩ := unstage_spec h hs hc
    obtain ⟨hwf', hmap'⟩ := ih hwf hrest
    refine ⟨hwf', fun k' m => ?_⟩
    rw [hmap', hmap]
    by_cases hk : k' = k
    · subst hk
      by_cases hm : m = n
      · simp [hm]
      · simp [hm]
    · simp [hk]

/-- A section is unstaged exactly when something is staged in it. -/
theorem unstageSection_isOk_iff (h : a.WellFormed) (hs : s.key? = some k) :
    (∃ b, a.unstageSection s = .ok b) ↔ ∃ n op, a.operation? k n = some op := by
  rw [← find?_isSome_iff h, unstageSection, get?_of_key? hs]
  cases a.find? k with
  | none => simp
  | some c => simp

theorem unstageSection_spec (h : a.WellFormed) (hs : s.key? = some k)
    (hb : a.unstageSection s = .ok b) :
    b.WellFormed ∧ ∀ k' m, b.operation? k' m = if k' = k then none else a.operation? k' m := by
  unfold unstageSection at hb
  split_ifs at hb
  have hdrop : a.dropCommit s = a.eraseKey k := by rw [dropCommit, hs]
  rw [← Except.ok.inj hb, hdrop]
  refine ⟨h.eraseKey k, fun k' m => ?_⟩
  rw [operation?, find?_eraseKey]
  split_ifs
  · rfl
  · rfl

end PackageStaging.StagingArea
