/-
# The staging area as an insertion-ordered map

An `OrderedMap` is a finite map that remembers the order in which its keys were inserted: setting
the value of a key that is there keeps the order, a new key comes last.  A staging area lists such
a map (`OrderedMap.area`), every operation on the one is an operation on the other
(`Edit.outcome_area`), and so are all operations one after another (`edited_area`).
`insertionOrdered` says what this means for the list of entries.
-/
import Mathlib.Logic.Function.Basic
import PackageStaging.Proofs.Staging.Edits

namespace PackageStaging

/-- A finite map, and the order in which its keys were inserted. -/
structure OrderedMap (κ ν : Type) where
  /-- The keys, the one that was inserted first comes first. -/
  keys : List κ
  /-- The value of a key. -/
  value? : κ → Option ν
  distinct : keys.Nodup
  mem_keys : ∀ k, k ∈ keys ↔ (value? k).isSome

namespace OrderedMap

variable {κ ν : Type} [DecidableEq κ]

/-- The map without keys. -/
def empty : OrderedMap κ ν where
  keys := []
  value? _ := none
  distinct := List.nodup_nil
  mem_keys _ := by simp

/-- The keys after the value of one of them is set: it is removed if there is no value, stays
where it is if it is there, and comes last if it is new. -/
def keysWith (keys : List κ) (k : κ) (isSome : Bool) : List κ :=
  if isSome then if k ∈ keys then keys else keys ++ [k] else keys.filter (· ≠ k)

lemma nodup_keysWith {keys : List κ} (h : keys.Nodup) (k : κ) (isSome : Bool) :
    (keysWith keys k isSome).Nodup := by
  unfold keysWith
  split_ifs with hsome hmem
  · exact h
  · exact List.nodup_append.2 ⟨h, List.nodup_singleton k, by
      rintro k' hk' _ hlast rfl
      exact hmem (List.mem_singleton.1 hlast ▸ hk')⟩
  · exact h.filter _

lemma mem_keysWith {keys : List κ} {k k' : κ} {isSome : Bool} :
    k' ∈ keysWith keys k isSome ↔ if k' = k then isSome = true else k' ∈ keys := by
  unfold keysWith
  split_ifs with hsome hmem hk hk hk
  · simp [hk, hmem, hsome]
  · rfl
  · simp [hk, hsome]
  · simp [hk]
  · simp [hk, hsome]
  · simp [hk]

/-- Sets the value of a key, or takes the key out. -/
def set (r : OrderedMap κ ν) (k : κ) (v : Option ν) : OrderedMap κ ν where
  keys := keysWith r.keys k v.isSome
  value? := Function.update r.value? k v
  distinct := nodup_keysWith r.distinct k v.isSome
  mem_keys k' := by
    rw [mem_keysWith]
    by_cases hk : k' = k
    · rw [if_pos hk, hk, Function.update_self]
    · rw [if_neg hk, Function.update_of_ne hk]
      exact r.mem_keys k'

lemma value?_set (r : OrderedMap κ ν) (k k' : κ) (v : Option ν) :
    (r.set k v).value? k' = if k' = k then v else r.value? k' := Function.update_apply _ _ _ _

end OrderedMap

/-- A commit with operations. -/
abbrev FilledCommit := { c : Commit // c.isEmpty = false }

/-- The commit, if it has operations. -/
def Commit.filled? (c : Commit) : Option FilledCommit :=
  if h : c.isEmpty = false then some ⟨c, h⟩ else none

lemma Commit.filled?_isSome (c : Commit) : c.filled?.isSome = !c.isEmpty := by
  unfold filled?
  split_ifs with h
  · simp [h]
  · simp [eq_true_of_ne_false h]

lemma Commit.map_filled? (c : Commit) :
    c.filled?.map (·.1) = if c.isEmpty then none else some c := by
  unfold filled?
  split_ifs with h h' h'
  · exact absurd (h.symm.trans h') Bool.false_ne_true
  · rfl
  · rfl
  · exact absurd (eq_false_of_ne_true h') h

/-! ### Areas and maps -/

/-- The staging area that lists the commits of a map in the order of the keys. -/
def OrderedMap.area (r : OrderedMap SectionKey FilledCommit) : StagingArea :=
  ⟨r.keys.filterMap fun k => (r.value? k).map fun c => ⟨k, c.1⟩⟩

namespace StagingArea

variable {a b : StagingArea} {k : SectionKey} {s : SectionAddress} {c d : Commit} {e : Edit}
  {r : OrderedMap SectionKey FilledCommit}

/-- The keys in the order of the entries. -/
def keys (a : StagingArea) : List SectionKey := a.entries.map (·.key)

lemma mem_keys_iff : k ∈ a.keys ↔ (a.find? k).isSome := by
  rw [← not_iff_not, Bool.not_eq_true, Option.isSome_eq_false_iff, Option.isNone_iff_eq_none,
    find?_eq_none_iff, keys, List.mem_map]
  simp

lemma not_mem_keys_iff : k ∉ a.keys ↔ ∀ e ∈ a.entries, e.key ≠ k := by
  simp [keys]

lemma keys_put (a : StagingArea) (k : SectionKey) (c : Commit) :
    (a.put k c).keys = OrderedMap.keysWith a.keys k !c.isEmpty := by
  have hany : (a.entries.any fun e => e.key = k) = true ↔ k ∈ a.keys := by
    simp [keys, List.any_eq_true]
  by_cases hc : c.isEmpty = true
  · rw [put, if_pos hc, OrderedMap.keysWith, hc, if_neg (by simp), keys, eraseKey, keys,
      List.filter_map]
    rfl
  · have hfilled : (!c.isEmpty) = true := by simp [hc]
    rw [put, if_neg hc, OrderedMap.keysWith, if_pos hfilled]
    by_cases hk : k ∈ a.keys
    · rw [if_pos (hany.2 hk), if_pos hk]
      exact map_key_replaceFirst k c a.entries
    · rw [if_neg (mt hany.1 hk), if_neg hk]
      exact List.map_append

/-- An area lists what is found under its keys. -/
lemma entries_eq (hdistinct : a.keys.Nodup) :
    a.entries = a.keys.filterMap fun k => (a.find? k).map (StagedCommit.mk k) := by
  have hentry : ∀ x ∈ a.entries, ((fun k => (a.find? k).map (StagedCommit.mk k)) ∘
      StagedCommit.key) x = some x := by
    intro x hx
    rw [Function.comp_apply, find?_of_mem hdistinct hx, Option.map_some]
  rw [keys, List.filterMap_map, List.filterMap_congr hentry, List.filterMap_some]

/-- An area is known by its keys and by what is found under them. -/
lemma eq_of_keys (hdistinct : a.keys.Nodup) (hkeys : a.keys = b.keys)
    (hfind : ∀ k, a.find? k = b.find? k) : a = b := by
  have hentries : a.entries = b.entries := by
    rw [entries_eq hdistinct, entries_eq (hkeys ▸ hdistinct), hkeys]
    simp only [hfind]
  exact congrArg StagingArea.mk hentries

lemma keys_area (r : OrderedMap SectionKey FilledCommit) : r.area.keys = r.keys := by
  rw [keys, OrderedMap.area, List.map_filterMap]
  have hkey : ∀ k ∈ r.keys, Option.map StagedCommit.key
      ((r.value? k).map fun c => (⟨k, c.1⟩ : StagedCommit)) = some k := by
    intro k hk
    obtain ⟨c, hc⟩ := Option.isSome_iff_exists.1 ((r.mem_keys k).1 hk)
    rw [hc]
    rfl
  rw [List.filterMap_congr hkey, List.filterMap_some]

lemma find?_area (r : OrderedMap SectionKey FilledCommit) (k : SectionKey) :
    r.area.find? k = (r.value? k).map (·.1) := by
  cases hv : r.value? k with
  | none =>
    have hk : k ∉ r.area.keys := by
      rw [keys_area, r.mem_keys, hv]
      exact Bool.false_ne_true
    rw [mem_keys_iff, Option.not_isSome_iff_eq_none] at hk
    exact hk
  | some c =>
    have hk : k ∈ r.keys := (r.mem_keys k).2 (by rw [hv]; rfl)
    have hmem : (⟨k, c.1⟩ : StagedCommit) ∈ r.area.entries :=
      List.mem_filterMap.2 ⟨k, hk, by rw [hv]; rfl⟩
    have hdistinct : r.area.keys.Nodup := keys_area r ▸ r.distinct
    exact find?_of_mem hdistinct hmem

/-- Putting a commit into the area of a map sets the value of the key. -/
lemma put_area (r : OrderedMap SectionKey FilledCommit) (k : SectionKey) (c : Commit) :
    r.area.put k c = (r.set k c.filled?).area := by
  have hkeys : (r.area.put k c).keys = (r.set k c.filled?).area.keys := by
    rw [keys_put, keys_area, keys_area, ← Commit.filled?_isSome]
    rfl
  have hdistinct : (r.set k c.filled?).area.keys.Nodup := keys_area _ ▸ (r.set k c.filled?).distinct
  refine eq_of_keys (hkeys ▸ hdistinct) hkeys fun k' => ?_
  rw [find?_put, find?_area, find?_area, OrderedMap.value?_set]
  split_ifs with hk hc
  · rw [Commit.map_filled?, if_pos hc]
  · rw [Commit.map_filled?, if_neg hc]
  · rfl

/-! ### Operations on the map -/

namespace Edit

/-- The commit that the edit makes of the one that its section has. -/
def revised (c : Commit) : Edit → Except Error Commit
  | .setCommit _ d => .ok d
  | .stage _ p => c.merge p
  | .unstage s n =>
    match c.remove? n with
    | some (_, d) => .ok d
    | none => .error (.notStagedIn n s)
  | .dropCommit _ | .clear => .ok .empty

/-- Whether the edit succeeds when its section `s` has no key.  There is no commit, and none can be
set. -/
def unkeyed (s : SectionAddress) (e : Edit) : Except Error Unit :=
  match e with
  | .setCommit _ _ | .stage _ _ | .unstage _ _ =>
    (e.revised .empty).bind fun _ => .error (.incompleteSection s.text)
  | .dropCommit _ | .clear => .ok ()

/-- What the edit makes of a map: it revises the commit of its section, or the empty one if there
is none. -/
def recorded (r : OrderedMap SectionKey FilledCommit) (e : Edit) :
    Except Error (OrderedMap SectionKey FilledCommit) :=
  match e.origin? with
  | none => .ok .empty
  | some s =>
    match s.key? with
    | some k => (e.revised (((r.value? k).map (·.1)).getD .empty)).map fun c => r.set k c.filled?
    | none => (e.unkeyed s).map fun _ => r

/-- The map after the edit; an edit that fails leaves it as it was. -/
def recordedAfter (r : OrderedMap SectionKey FilledCommit) (e : Edit) :
    OrderedMap SectionKey FilledCommit :=
  match e.recorded r with
  | .ok r' => r'
  | .error _ => r

/-- An edit for a section with a key revises what is under the key. -/
lemma outcome_eq_revised (hs : e.origin? = some s) (hk : s.key? = some k) (a : StagingArea) :
    e.outcome a = (e.revised ((a.find? k).getD .empty)).map (a.put k) := by
  cases e with
  | setCommit s' c =>
    cases hs
    exact setCommit_eq hk a c
  | stage s' p =>
    cases hs
    exact stage_eq hk a p
  | unstage s' n =>
    cases hs
    rw [outcome, unstage_eq hk, revised]
    cases a.find? k with
    | none => rfl
    | some c =>
      rw [Option.bind_some, Option.getD_some]
      cases c.remove? n with
      | none => rfl
      | some _ => rfl
  | dropCommit s' =>
    cases hs
    have hdrop : a.dropCommit s = a.put k .empty := by
      rw [StagingArea.dropCommit, hk]
      rfl
    exact congrArg Except.ok hdrop
  | clear => cases hs

/-- An edit for a section without a key changes nothing. -/
lemma outcome_eq_unkeyed (hs : e.origin? = some s) (hk : s.key? = none) (a : StagingArea) :
    e.outcome a = (e.unkeyed s).map fun _ => a := by
  have hget : a.get? s = none := by rw [get?, hk, Option.bind_none]
  cases e with
  | setCommit s' c =>
    cases hs
    exact setCommit_of_none hk a c
  | stage s' p =>
    cases hs
    have hset : a.setCommit s = fun _ => .error (.incompleteSection s.text) :=
      funext fun c => setCommit_of_none hk a c
    rw [outcome, StagingArea.stage, hget, hset, Option.getD_none, unkeyed, revised]
    cases Commit.empty.merge p with
    | error err => rfl
    | ok c => rfl
  | unstage s' n =>
    cases hs
    rw [outcome, StagingArea.unstage, hget]
    rfl
  | dropCommit s' =>
    cases hs
    rw [outcome, StagingArea.dropCommit, hk]
    rfl
  | clear => cases hs

/-- An edit of the area of a map is that edit of the map, and fails with the same error. -/
theorem outcome_area (r : OrderedMap SectionKey FilledCommit) (e : Edit) :
    e.outcome r.area = (e.recorded r).map OrderedMap.area := by
  cases hs : e.origin? with
  | none =>
    cases e with
    | clear => rfl
    | _ => cases hs
  | some s =>
    cases hk : s.key? with
    | some k =>
      rw [outcome_eq_revised hs hk, find?_area]
      simp only [recorded, hs, hk]
      cases e.revised (((r.value? k).map (·.1)).getD .empty) with
      | error err => rfl
      | ok c => exact congrArg Except.ok (put_area r k c)
    | none =>
      rw [outcome_eq_unkeyed hs hk]
      simp only [recorded, hs, hk]
      cases e.unkeyed s with
      | error err => rfl
      | ok _ => rfl

lemma after_area (r : OrderedMap SectionKey FilledCommit) (e : Edit) :
    e.after r.area = (e.recordedAfter r).area := by
  rw [after, outcome_area, recordedAfter]
  cases e.recorded r with
  | error _ => rfl
  | ok _ => rfl

end Edit

/-- The map after edits that are made one after another. -/
def recorded (r : OrderedMap SectionKey FilledCommit) (es : List Edit) :
    OrderedMap SectionKey FilledCommit := es.foldl (fun r e => e.recordedAfter r) r

/-- Edits of the area of a map one after another are those edits of the map. -/
theorem edited_area (r : OrderedMap SectionKey FilledCommit) (es : List Edit) :
    r.area.edited es = (recorded r es).area := by
  induction es generalizing r with
  | nil => rfl
  | cons e es ih =>
    show (e.after r.area).edited es = _
    rw [Edit.after_area, ih]
    rfl

/-- No area has an empty commit, whatever edits have made it. -/
lemma filled_edited (es : List Edit) :
    ∀ e ∈ (empty.edited es).entries, e.commit.isEmpty = false := by
  have harea : empty.edited es = (recorded .empty es).area := edited_area .empty es
  intro e he
  rw [harea] at he
  obtain ⟨k, -, hk⟩ := List.mem_filterMap.1 he
  obtain ⟨c, -, rfl⟩ := Option.map_eq_some_iff.1 hk
  exact c.2

/-! ### What is put where -/

/-- Putting a commit under a key touches no entry of another key. -/
lemma filter_put (a : StagingArea) (k : SectionKey) (c : Commit) :
    (a.put k c).entries.filter (·.key ≠ k) = a.entries.filter (·.key ≠ k) := by
  have hreplace : ∀ l, (replaceFirst k c l).filter (·.key ≠ k) = l.filter (·.key ≠ k) := by
    intro l
    induction l with
    | nil => rfl
    | cons x l ih =>
      rw [replaceFirst]
      split_ifs with hx
      · simp [hx]
      · rw [List.filter_cons, List.filter_cons, ih]
  unfold put
  split_ifs
  · simp [eraseKey]
  · exact hreplace a.entries
  · simp

lemma put_of_isEmpty (hc : c.isEmpty = true) (a : StagingArea) (k : SectionKey) :
    a.put k c = a.eraseKey k := if_pos hc

lemma eraseKey_of_new (hnew : ∀ e ∈ a.entries, e.key ≠ k) : a.eraseKey k = a := by
  rw [eraseKey, List.filter_eq_self.2 fun e he => by simpa using hnew e he]

/-- A commit under a key that is there replaces the first one under it. -/
lemma put_of_mem (hc : c.isEmpty = false) (hk : k ∈ a.keys) :
    a.put k c = ⟨replaceFirst k c a.entries⟩ := by
  rw [put, if_neg (by simp [hc]), if_pos]
  simpa [keys] using hk

lemma replaceFirst_self (h : a.find? k = some c) : replaceFirst k c a.entries = a.entries := by
  obtain ⟨es⟩ := a
  unfold find? at h
  induction es with
  | nil => cases h
  | cons e es ih =>
    by_cases he : e.key = k
    · have hc : e.commit = c := by simpa [he] using h
      rw [replaceFirst, if_pos he, ← hc]
    · simp [replaceFirst, he, ih (by simpa [he] using h)]

lemma replaceFirst_replaceFirst (k : SectionKey) (c d : Commit) (es : List StagedCommit) :
    replaceFirst k d (replaceFirst k c es) = replaceFirst k d es := by
  induction es with
  | nil => rfl
  | cons e es ih =>
    by_cases he : e.key = k
    · simp [replaceFirst, he]
    · simp [replaceFirst, he, ih]

lemma replaceFirst_concat {es : List StagedCommit} (hnew : ∀ e ∈ es, e.key ≠ k) (c d : Commit) :
    replaceFirst k d (es ++ [⟨k, c⟩]) = es ++ [⟨k, d⟩] := by
  induction es with
  | nil => simp [replaceFirst]
  | cons e es ih =>
    obtain ⟨he, hrest⟩ := List.forall_mem_cons.1 hnew
    simp [replaceFirst, he, ih hrest]

/-- Of two commits put under a key, the second one counts.  The first must not be empty if the key is
there, or the key would lose its place. -/
lemma put_put (h : c.isEmpty = true → k ∉ a.keys) (d : Commit) :
    (a.put k c).put k d = a.put k d := by
  cases hd : d.isEmpty with
  | true =>
    rw [put_of_isEmpty hd, put_of_isEmpty hd]
    exact congrArg StagingArea.mk (filter_put a k c)
  | false =>
    by_cases hk : k ∈ a.keys
    · have hc : c.isEmpty = false := eq_false_of_ne_true fun hc => h hc hk
      have hk' : k ∈ keys ⟨replaceFirst k c a.entries⟩ := by rwa [keys, map_key_replaceFirst]
      rw [put_of_mem hc hk, put_of_mem hd hk', put_of_mem hd hk, replaceFirst_replaceFirst]
    · have hnew := not_mem_keys_iff.1 hk
      cases hc : c.isEmpty with
      | true => rw [put_of_isEmpty hc, eraseKey_of_new hnew]
      | false =>
        have hk' : k ∈ keys ⟨a.entries ++ [⟨k, c⟩]⟩ := by simp [keys]
        rw [put_of_new hc hnew, put_of_mem hd hk', put_of_new hd hnew, replaceFirst_concat hnew]

/-- The commit under a key that is there is replaced where it stands. -/
lemma put_inPlace (hdistinct : a.keys.Nodup) (hc : c.isEmpty = false) {l l' : List StagedCommit}
    (ha : a.entries = l ++ ⟨k, d⟩ :: l') : (a.put k c).entries = l ++ ⟨k, c⟩ :: l' := by
  rw [keys, ha, List.map_append, List.nodup_append] at hdistinct
  have hbefore : ∀ x ∈ l, x.key ≠ k := fun x hx =>
    hdistinct.2.2 x.key (List.mem_map_of_mem hx) k (.head _)
  clear hdistinct
  have hany : (a.entries.any fun e => e.key = k) = true := by simp [ha]
  rw [put, if_neg (by simp [hc]), if_pos hany, ha]
  clear ha hany
  induction l with
  | nil => simp [replaceFirst]
  | cons x l ih =>
    rw [List.cons_append, replaceFirst, if_neg (hbefore x (.head _))]
    exact congrArg (x :: ·) (ih fun y hy => hbefore y (.tail _ hy))

/-- The area `b` is the area `a` with the commit `c` put under the key `k`. -/
structure Edit.Sets (a : StagingArea) (k : SectionKey) (c : Commit) (b : StagingArea) : Prop where
  /-- All other entries stay as they are, in the same order. -/
  others : b.entries.filter (·.key ≠ k) = a.entries.filter (·.key ≠ k)
  /-- A key that is there keeps its place. -/
  inPlace : c.isEmpty = false → ∀ l d l', a.entries = l ++ ⟨k, d⟩ :: l' →
    b.entries = l ++ ⟨k, c⟩ :: l'
  /-- A new key comes last. -/
  atEnd : c.isEmpty = false → k ∉ a.keys → b.entries = a.entries ++ [⟨k, c⟩]
  /-- The key is gone exactly if the commit is empty. -/
  gone : k ∉ b.keys ↔ c.isEmpty = true

lemma Edit.sets_put (hdistinct : a.keys.Nodup) (k : SectionKey) (c : Commit) :
    Edit.Sets a k c (a.put k c) where
  others := filter_put a k c
  inPlace hc _ _ _ ha := put_inPlace hdistinct hc ha
  atEnd hc hk := by
    rw [mem_keys_iff, Option.not_isSome_iff_eq_none, find?_eq_none_iff] at hk
    rw [put_of_new hc hk]
  gone := by
    rw [keys_put, OrderedMap.mem_keysWith, if_pos rfl]
    simp

/-- What it means that the edits `es`, made one after another from the empty area, lead to an
insertion-ordered map from keys of sections to commits with operations. -/
structure InsertionOrdered (es : List Edit) : Prop where
  /-- The entries are those of the map that the edits lead to. -/
  entries : (empty.edited es).entries = (recorded .empty es).area.entries
  /-- Every edit gives what it gives on the map, and fails with the same error. -/
  outcome : ∀ e : Edit, e.outcome (empty.edited es) =
    (e.recorded (recorded .empty es)).map OrderedMap.area
  distinct : (empty.edited es).keys.Nodup
  filled : ∀ x ∈ (empty.edited es).entries, x.commit.isEmpty = false
  /-- A complete section has the value of its key. -/
  complete : ∀ s : SectionAddress, s.isComplete = true →
    (empty.edited es).get? s = ((recorded .empty es).value? ⟨s.text⟩).map (·.1)
  incomplete : ∀ s : SectionAddress, s.isComplete = false → (empty.edited es).get? s = none
  /-- An edit of a complete section sets the commit that it makes of the one that is there. -/
  sets : ∀ (e : Edit) s b, e.origin? = some s → s.isComplete = true →
    e.outcome (empty.edited es) = .ok b →
    ∃ c, e.revised (((empty.edited es).get? s).getD .empty) = .ok c ∧
      Edit.Sets (empty.edited es) ⟨s.text⟩ c b
  /-- An edit of an incomplete section changes nothing. -/
  skips : ∀ (e : Edit) s, e.origin? = some s → s.isComplete = false →
    (empty.edited (es ++ [e])).entries = (empty.edited es).entries
  clears : (empty.edited (es ++ [.clear])).entries = []
  /-- An edit that fails changes nothing. -/
  fails : ∀ (e : Edit) err, e.outcome (empty.edited es) = .error err →
    (empty.edited (es ++ [e])).entries = (empty.edited es).entries

lemma edited_concat (a : StagingArea) (es : List Edit) (e : Edit) :
    a.edited (es ++ [e]) = e.after (a.edited es) := List.foldl_concat ..

/-- Whatever edits are made, the staging area is an insertion-ordered map. -/
theorem insertionOrdered (es : List Edit) : InsertionOrdered es := by
  have harea : empty.edited es = (recorded .empty es).area := edited_area .empty es
  have hdistinct : (empty.edited es).keys.Nodup := by
    rw [harea, keys_area]
    exact (recorded .empty es).distinct
  have hkey : ∀ {s : SectionAddress}, s.isComplete = true → s.key? = some ⟨s.text⟩ := fun hs =>
    SectionAddress.key?_eq_some_iff.2 ⟨hs, rfl⟩
  have hnokey : ∀ {s : SectionAddress}, s.isComplete = false → s.key? = none := fun hs => by
    rw [SectionAddress.key?, hs]
    rfl
  constructor
  case entries => rw [harea]
  case outcome =>
    intro e
    rw [harea, Edit.outcome_area]
  case distinct => exact hdistinct
  case filled =>
    rw [harea]
    intro x hx
    obtain ⟨k, -, hx⟩ := List.mem_filterMap.1 hx
    obtain ⟨c, -, rfl⟩ := Option.map_eq_some_iff.1 hx
    exact c.2
  case complete =>
    intro s hs
    rw [get?_of_key? (hkey hs), harea, find?_area]
  case incomplete =>
    intro s hs
    rw [get?, hnokey hs, Option.bind_none]
  case sets =>
    intro e s b hs hcomplete hb
    rw [Edit.outcome_eq_revised hs (hkey hcomplete)] at hb
    rw [get?_of_key? (hkey hcomplete)]
    cases hc : e.revised (((empty.edited es).find? ⟨s.text⟩).getD .empty) with
    | error err =>
      rw [hc] at hb
      cases hb
    | ok c =>
      rw [hc] at hb
      cases hb
      exact ⟨c, rfl, Edit.sets_put hdistinct _ c⟩
  case skips =>
    intro e s hs hincomplete
    rw [edited_concat, Edit.after, Edit.outcome_eq_unkeyed hs (hnokey hincomplete)]
    cases e.unkeyed s with
    | error err => rfl
    | ok _ => rfl
  case clears =>
    rw [edited_concat]
    rfl
  case fails =>
    intro e err herr
    rw [edited_concat, Edit.after, herr]

end StagingArea

end PackageStaging
