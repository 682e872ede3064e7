/-
# Operations one after another

A staging area offers five operations, each of which is an `Edit`.  `Edit.outcome_eq_ok` says once
what an edit that succeeds can do: it empties the area, or it puts a commit under the key of its
section.  Hence whatever edits are made, keys stay canonical and distinct and no commit is empty
(`orderly_edited`); each name stays in one bucket exactly as long as the commits that are set
outright have each name in one bucket (`sole_edited_iff`); and what is under another key is left as
it is (`Edit.find?_outcome`).
-/
import PackageStaging.Proofs.Staging.Keys
import PackageStaging.Proofs.Staging.Restaging

namespace PackageStaging.StagingArea

/-- An operation of a staging area. -/
inductive Edit where
  /-- Sets the commit of a section, whatever it holds. -/
  | setCommit (s : SectionAddress) (c : Commit)
  /-- Merges a patch into the commit of a section. -/
  | stage (s : SectionAddress) (p : Patch)
  /-- Takes one package out of the commit of a section. -/
  | unstage (s : SectionAddress) (name : String)
  /-- Drops the commit of a section. -/
  | dropCommit (s : SectionAddress)
  /-- Drops all commits. -/
  | clear
deriving DecidableEq

namespace Edit

/-- The section that the edit is for, if it is for one. -/
def origin? : Edit → Option SectionAddress
  | .setCommit s _ | .stage s _ | .unstage s _ | .dropCommit s => some s
  | .clear => none

/-- The result of the edit. -/
def outcome (a : StagingArea) : Edit → Except Error StagingArea
  | .setCommit s c => a.setCommit s c
  | .stage s p => a.stage s p
  | .unstage s n => a.unstage s n
  | .dropCommit s => .ok (a.dropCommit s)
  | .clear => .ok .empty

/-- The area after the edit; an edit that fails leaves it as it was. -/
def after (a : StagingArea) (e : Edit) : StagingArea :=
  match e.outcome a with
  | .ok b => b
  | .error _ => a

/-- The fields of the edit's section hold no `/`. -/
def SlashFree (e : Edit) : Prop := ∀ s, e.origin? = some s → s.SlashFree

/-- The edit sets no commit that has a name in two buckets; for an incomplete section it sets
none at all. -/
def Sole : Edit → Prop
  | .setCommit s c => s.isComplete = true → c.Sole
  | _ => True

/-- The edit is not one that sets a commit outright. -/
def IsStaging : Edit → Prop
  | .setCommit _ _ => False
  | _ => True

lemma IsStaging.sole {e : Edit} (h : e.IsStaging) : e.Sole := by
  cases e with
  | setCommit => exact h.elim
  | _ => trivial

end Edit

/-- The area after edits that are made one after another. -/
def edited (a : StagingArea) (es : List Edit) : StagingArea := es.foldl (fun a e => e.after a) a

variable {a b : StagingArea} {k : SectionKey} {s : SectionAddress} {c : Commit} {e : Edit}
  {es : List Edit}

/-! ### What an edit does -/

lemma setCommit_eq (hs : s.key? = some k) (a : StagingArea) (c : Commit) :
    a.setCommit s c = .ok (a.put k c) := by
  simp only [setCommit, requireKey, hs]
  rfl

lemma setCommit_of_none (hs : s.key? = none) (a : StagingArea) (c : Commit) :
    a.setCommit s c = .error (.incompleteSection s.text) := by
  simp only [setCommit, requireKey, hs]
  rfl

namespace Edit

/-- The commits that an edit can put under the key of its section. -/
inductive Puts (a : StagingArea) (k : SectionKey) : Edit → Commit → Prop
  | setCommit (s : SectionAddress) (c : Commit) : Puts a k (.setCommit s c) c
  | stage (s : SectionAddress) {p : Patch} (h : (((a.find? k).getD .empty).overlay p).Sole) :
      Puts a k (.stage s p) (((a.find? k).getD .empty).overlay p)
  | unstage (s : SectionAddress) {n : String} {c : Commit} {act : Action}
      (hc : a.find? k = some c) (hact : c.actionOf n = some act) :
      Puts a k (.unstage s n) (c.without n act)
  | dropCommit (s : SectionAddress) : Puts a k (.dropCommit s) .empty

/-- An edit for a section with a key puts a commit under the key, if it succeeds. -/
lemma outcome_of_key (hs : e.origin? = some s) (hk : s.key? = some k)
    (h : e.outcome a = .ok b) : ∃ c, e.Puts a k c ∧ b = a.put k c := by
  cases e with
  | setCommit s' c =>
    cases hs
    rw [outcome, setCommit_eq hk] at h
    exact ⟨c, .setCommit s c, (Except.ok.inj h).symm⟩
  | stage s' p =>
    cases hs
    rw [outcome, stage_eq hk] at h
    cases hd : (((a.find? k).getD .empty).overlay p).checked with
    | error err =>
      rw [hd] at h
      cases h
    | ok d =>
      obtain ⟨hsole, rfl⟩ := checked_eq_ok_iff.1 hd
      rw [hd] at h
      exact ⟨_, .stage s hsole, (Except.ok.inj h).symm⟩
  | unstage s' n =>
    cases hs
    rw [outcome, unstage_eq hk] at h
    split at h
    · next act d hr =>
      obtain ⟨c, hc, hremove⟩ := Option.bind_eq_some_iff.1 hr
      obtain ⟨act', hact, hd⟩ := Option.map_eq_some_iff.1 hremove
      obtain ⟨rfl, rfl⟩ := Prod.mk.inj hd
      exact ⟨_, .unstage s hc hact, (Except.ok.inj h).symm⟩
    · cases h
  | dropCommit s' =>
    cases hs
    have hdrop : a.dropCommit s = a.put k .empty := by
      rw [StagingArea.dropCommit, hk]
      rfl
    exact ⟨.empty, .dropCommit s, (Except.ok.inj h).symm.trans hdrop⟩
  | clear => cases hs

/-- An edit for an incomplete section changes nothing. -/
lemma outcome_of_none (hs : e.origin? = some s) (hk : s.key? = none)
    (h : e.outcome a = .ok b) : b = a := by
  have hget : a.get? s = none := by rw [get?, hk, Option.bind_none]
  cases e with
  | setCommit s' c =>
    cases hs
    rw [outcome, setCommit_of_none hk] at h
    cases h
  | stage s' p =>
    cases hs
    obtain ⟨c, -, hset⟩ := bind_eq_ok_iff.1 h
    rw [setCommit_of_none hk] at hset
    cases hset
  | unstage s' n =>
    cases hs
    rw [outcome, StagingArea.unstage, hget] at h
    cases h
  | dropCommit s' =>
    cases hs
    rw [outcome, StagingArea.dropCommit, hk] at h
    exact (Except.ok.inj h).symm
  | clear => cases hs

/-- What an edit that succeeds can do. -/
lemma outcome_eq_ok (h : e.outcome a = .ok b) :
    b = .empty ∨ b = a ∨
      ∃ s k c, e.origin? = some s ∧ s.key? = some k ∧ e.Puts a k c ∧ b = a.put k c := by
  cases hs : e.origin? with
  | none =>
    cases e with
    | clear => exact .inl (Except.ok.inj h).symm
    | _ => cases hs
  | some s =>
    cases hk : s.key? with
    | none => exact .inr (.inl (outcome_of_none hs hk h))
    | some k =>
      obtain ⟨c, hputs, hb⟩ := outcome_of_key hs hk h
      exact .inr (.inr ⟨s, k, c, rfl, hk, hputs, hb⟩)

/-- An edit leaves what is under another key than that of its section. -/
lemma find?_outcome (hs : e.origin? = some s) (hk : s.key? ≠ some k)
    (h : e.outcome a = .ok b) : b.find? k = a.find? k := by
  cases hkey : s.key? with
  | none => rw [outcome_of_none hs hkey h]
  | some k' =>
    obtain ⟨c, -, rfl⟩ := outcome_of_key hs hkey h
    have hne : k ≠ k' := by
      rintro rfl
      exact hk hkey
    rw [find?_put, if_neg hne]

/-- The area after an edit, when the edit succeeds and when it fails. -/
lemma after_cases (e : Edit) (a : StagingArea) : e.after a = a ∨ e.outcome a = .ok (e.after a) := by
  unfold after
  cases e.outcome a with
  | ok b => exact .inr rfl
  | error err => exact .inl rfl

end Edit

/-- What is staged for a section is neither changed nor taken out by an edit for a section that has
another key. -/
lemma Edit.get?_after {t : SectionAddress} (ht : e.origin? = some t)
    (hkey : ∀ k, s.key? = some k → t.key? ≠ some k) : (e.after a).get? s = a.get? s := by
  rcases e.after_cases a with hsame | hok
  · rw [hsame]
  · cases hs : s.key? with
    | none => rw [get?, get?, hs, Option.bind_none, Option.bind_none]
    | some k => rw [get?_of_key? hs, get?_of_key? hs, Edit.find?_outcome ht (hkey k hs) hok]

/-! ### What all edits keep -/

/-- What holds of a staging area whatever edits have been made: sections lead to their keys, no
key occurs twice, and every commit has operations. -/
structure Orderly (a : StagingArea) : Prop where
  keys : ∀ e ∈ a.entries, e.origin.key? = some e.key
  distinct : (a.entries.map (·.key)).Nodup
  filled : ∀ e ∈ a.entries, e.commit.isEmpty = false

/-- Each name is in one bucket of each commit. -/
def Sole (a : StagingArea) : Prop := ∀ x ∈ a.entries, x.commit.Sole

lemma wellFormed_iff : a.WellFormed ↔ a.Orderly ∧ a.Sole :=
  ⟨fun h => ⟨⟨h.keys, h.distinct, h.filled⟩, h.sole⟩,
    fun h => ⟨h.1.keys, h.1.distinct, h.1.filled, h.2⟩⟩

lemma Orderly.put (h : a.Orderly) (hk : k.address.key? = some k) (c : Commit) :
    (a.put k c).Orderly where
  keys x hx := by
    rcases mem_put hx with hx | ⟨rfl, -⟩
    · exact h.keys x hx
    · exact hk
  distinct := nodup_put h.distinct k c
  filled x hx := by
    rcases mem_put hx with hx | ⟨rfl, hfilled⟩
    · exact h.filled x hx
    · exact hfilled

lemma Orderly.after (h : a.Orderly) (he : e.SlashFree) : (e.after a).Orderly := by
  rcases e.after_cases a with hsame | hok
  · rwa [hsame]
  · rcases Edit.outcome_eq_ok hok with hempty | hsame | ⟨s, k, c, hs, hk, -, hput⟩
    · rw [hempty]
      exact (wellFormed_iff.1 wellFormed_empty).1
    · rwa [hsame]
    · rw [hput]
      exact h.put ((he s hs).keyedBy hk).address c

lemma Edit.Puts.sole (hputs : e.Puts a k c) (h : a.Sole) (he : e.Sole)
    (hs : e.origin? = some s) (hk : s.key? = some k) : c.Sole := by
  cases hputs with
  | setCommit s' c =>
    cases hs
    exact he (SectionAddress.key?_eq_some_iff.1 hk).1
  | stage s' hsole => exact hsole
  | unstage s' hc hact => exact (h _ (mem_of_find? hc)).without _ _
  | dropCommit => exact Commit.sole_empty

lemma Sole.after (h : a.Sole) (he : e.Sole) : (e.after a).Sole := by
  rcases e.after_cases a with hsame | hok
  · rwa [hsame]
  · rcases Edit.outcome_eq_ok hok with hempty | hsame | ⟨s, k, c, hs, hk, hputs, hput⟩
    · rw [hempty]
      exact wellFormed_empty.sole
    · rwa [hsame]
    · rw [hput]
      intro x hx
      rcases mem_put hx with hx | ⟨rfl, -⟩
      · exact h x hx
      · exact hputs.sole h he hs hk

/-- A commit that has a name in two buckets shows in the area once it is set. -/
lemma Sole.of_after (h : (e.after a).Sole) : e.Sole := by
  cases e with
  | setCommit s c =>
    intro hcomplete n act act' hact hact'
    have hkey : s.key? = some ⟨s.text⟩ := SectionAddress.key?_eq_some_iff.2 ⟨hcomplete, rfl⟩
    -- a commit that holds a name is kept, so the area has it
    have hfilled : c.isEmpty = false := by
      refine eq_false_of_ne_true fun hempty => ?_
      rw [Commit.operation?_eq_none.1 (Commit.isEmpty_iff.1 hempty n) act] at hact
      exact nomatch hact
    have hafter : (Edit.setCommit s c).after a = a.put ⟨s.text⟩ c := by
      rw [Edit.after, Edit.outcome, setCommit_eq hkey]
    have hfind : ((Edit.setCommit s c).after a).find? ⟨s.text⟩ = some c := by
      rw [hafter, find?_put, if_pos rfl, hfilled]
      rfl
    exact h _ (mem_of_find? hfind) n act act' hact hact'
  | _ => trivial

/-! ### Runs -/

/-- What each of the edits keeps, all of them together keep. -/
lemma edited_induction {P : StagingArea → Prop} (h : P a)
    (hstep : ∀ b, ∀ e ∈ es, P b → P (e.after b)) : P (a.edited es) := by
  induction es generalizing a with
  | nil => exact h
  | cons e es ih =>
    exact ih (hstep a e (.head _) h) fun b e' he' => hstep b e' (.tail _ he')

theorem orderly_edited (hes : ∀ e ∈ es, e.SlashFree) : (empty.edited es).Orderly :=
  edited_induction (wellFormed_iff.1 wellFormed_empty).1 fun _ e he h => h.after (hes e he)

lemma sole_edited (hsole : ∀ e ∈ es, e.Sole) : (empty.edited es).Sole :=
  edited_induction wellFormed_empty.sole fun _ e he h => h.after (hsole e he)

theorem wellFormed_edited (hes : ∀ e ∈ es, e.SlashFree) (hsole : ∀ e ∈ es, e.Sole) :
    (empty.edited es).WellFormed :=
  wellFormed_iff.2 ⟨orderly_edited hes, sole_edited hsole⟩

/-- Each name is in one bucket all along exactly if no edit sets a commit that has a name in two. -/
theorem sole_edited_iff :
    (∀ before, before <+: es → (empty.edited before).Sole) ↔ ∀ e ∈ es, e.Sole := by
  constructor
  · intro h e he
    obtain ⟨before, rest, rfl⟩ := List.append_of_mem he
    have hafter := h (before ++ [e]) ⟨rest, by simp⟩
    rw [edited, List.foldl_append] at hafter
    exact Sole.of_after hafter
  · intro h before hbefore
    exact sole_edited fun e he => h e (hbefore.subset he)

end PackageStaging.StagingArea
