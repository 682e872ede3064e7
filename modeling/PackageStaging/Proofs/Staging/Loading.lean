/-
# Lists that are staging areas

A list of entries is taken for a staging area if no entry breaks one of four rules, which are tried
in order (`Rule`).  These rules leave exactly the lists that staging can make
(`ofEntries_isOk_iff_staged`): what any edits make obeys the rules, and a list that obeys them is
made by staging its commits one after another (`edited_restagings`).
-/
import Mathlib.Data.List.Induction
import PackageStaging.Proofs.Staging.Edits

namespace PackageStaging.StagingArea

/-- A rule for the entries of a list. -/
inductive Rule where
  /-- The key is canonical. -/
  | canonicalKey
  /-- No entry before has the key. -/
  | newKey
  /-- The commit has operations. -/
  | operations
  /-- Each name is in one bucket. -/
  | oneBucket
deriving DecidableEq

namespace Rule

/-- The place of the rule in the order in which the rules are tried. -/
def place : Rule → Nat
  | .canonicalKey => 0
  | .newKey => 1
  | .operations => 2
  | .oneBucket => 3

/-- The entry `e`, before which those of `before` stand, breaks the rule. -/
def Broken (before : List StagedCommit) (e : StagedCommit) : Rule → Prop
  | .canonicalKey => ¬e.key.Canonical
  | .newKey => ∃ d ∈ before, d.key = e.key
  | .operations => ∀ act n, e.commit.holds act n = false
  | .oneBucket =>
    ∃ n act act', act ≠ act' ∧ e.commit.holds act n = true ∧ e.commit.holds act' n = true

/-- The error for an entry that breaks the rule.  If a name is in two buckets, it is the first one
that stands in a second bucket. -/
def Reports (e : StagedCommit) : Rule → Error → Prop
  | .canonicalKey, err => err = .incompleteSection e.key.text
  | .newKey, err => err = .parse (e.key.text ++ " is staged twice")
  | .operations, err => err = .parse ("empty commit for " ++ e.key.text)
  | .oneBucket, err => ∃ p n q, e.commit.names = p ++ n :: q ∧ p.Nodup ∧ n ∈ p ∧
      err = .conflictingActions n

end Rule

/-- The entries break no rule, those of `before` standing before them. -/
def Blameless (before : List StagedCommit) : List StagedCommit → Prop
  | [] => True
  | e :: es => (∀ rule : Rule, ¬rule.Broken before e) ∧ Blameless (before ++ [e]) es

/-- The entry is refused with the error for the first rule that it breaks. -/
def Refused (before : List StagedCommit) (e : StagedCommit) (err : Error) : Prop :=
  ∃ rule : Rule, rule.Broken before e ∧ (∀ r : Rule, r.place < rule.place → ¬r.Broken before e) ∧
    rule.Reports e err

variable {a : StagingArea} {before es : List StagedCommit} {e : StagedCommit}
  {seen : List SectionKey} {err : Error} {rule : Rule}

/-! ### One entry -/

lemma Rule.place_inj {r r' : Rule} (h : r.place = r'.place) : r = r' := by
  cases r <;> cases r' <;> first | rfl | exact nomatch h

lemma refused_iff (hbroken : rule.Broken before e)
    (hfirst : ∀ r : Rule, r.place < rule.place → ¬r.Broken before e) :
    Refused before e err ↔ rule.Reports e err := by
  constructor
  · rintro ⟨r, hr, hrfirst, hreports⟩
    rcases Nat.lt_trichotomy r.place rule.place with hlt | heq | hgt
    · exact absurd hr (hfirst r hlt)
    · rwa [← Rule.place_inj heq]
    · exact absurd hbroken (hrfirst rule hgt)
  · intro hreports
    exact ⟨rule, hbroken, hfirst, hreports⟩

lemma broken_operations_iff : Rule.operations.Broken before e ↔ e.commit.isEmpty = true := by
  rw [Commit.isEmpty_iff]
  constructor
  · intro h n
    exact Commit.operation?_eq_none.2 fun act => h act n
  · intro h act n
    exact Commit.operation?_eq_none.1 (h n) act

lemma broken_oneBucket_iff : Rule.oneBucket.Broken before e ↔ ¬e.commit.Sole := by
  unfold Rule.Broken Commit.Sole
  push Not
  constructor
  · rintro ⟨n, act, act', hne, h, h'⟩
    exact ⟨n, act, act', h, h', hne⟩
  · rintro ⟨n, act, act', h, h', hne⟩
    exact ⟨n, act, act', hne, h, h'⟩

/-- The error for an entry, if it is refused; `seen` are the keys of those before. -/
def entryError? (seen : List SectionKey) (e : StagedCommit) : Option Error :=
  if e.origin.key? ≠ some e.key then some (.incompleteSection e.key.text)
  else if e.key ∈ seen then some (.stagedTwice e.key)
  else if e.commit.isEmpty then some (.emptyCommit e.key)
  else e.commit.conflict?.map .conflictingActions

lemma checkEntries_cons (seen : List SectionKey) (e : StagedCommit) (es : List StagedCommit) :
    checkEntries seen (e :: es) = match entryError? seen e with
      | some err => .error err
      | none => checkEntries (e.key :: seen) es := by
  rw [checkEntries, entryError?]
  split_ifs with hkey hseen hempty
  · rfl
  · rfl
  · rfl
  · cases e.commit.conflict? with
    | none => rfl
    | some n => rfl

/-- The keys are those of the entries before. -/
def KeysOf (before : List StagedCommit) (seen : List SectionKey) : Prop :=
  ∀ k, k ∈ seen ↔ ∃ d ∈ before, d.key = k

lemma KeysOf.cons (h : KeysOf before seen) (e : StagedCommit) :
    KeysOf (before ++ [e]) (e.key :: seen) := by
  intro k
  rw [List.mem_cons, h k]
  constructor
  · rintro (rfl | ⟨d, hd, rfl⟩)
    · exact ⟨e, by simp, rfl⟩
    · exact ⟨d, List.mem_append_left _ hd, rfl⟩
  · rintro ⟨d, hd, rfl⟩
    rcases List.mem_append.1 hd with hd | hd
    · exact .inr ⟨d, hd, rfl⟩
    · exact .inl (by rw [List.mem_singleton.1 hd])

/-- Whether and with which error an entry is refused, when the first rule that it breaks is
known. -/
lemma refused_of_first (hbroken : rule.Broken before e)
    (hfirst : ∀ r : Rule, r.place < rule.place → ¬r.Broken before e) {err₀ : Error}
    (hreports : ∀ err, rule.Reports e err ↔ err = err₀) :
    (∀ err, some err₀ = some err ↔ Refused before e err) ∧
      (some err₀ = none ↔ ∀ rule : Rule, ¬rule.Broken before e) := by
  refine ⟨fun err => ?_, iff_of_false (Option.some_ne_none err₀) fun hnone => hnone rule hbroken⟩
  rw [refused_iff hbroken hfirst, hreports, Option.some.injEq, eq_comm]

lemma reports_oneBucket_iff {n : String} (h : e.commit.conflict? = some n) (err : Error) :
    Rule.oneBucket.Reports e err ↔ err = .conflictingActions n := by
  have hfirst : ∀ m, e.commit.conflict? = some m ↔
      ∃ p q, e.commit.names = p ++ m :: q ∧ p.Nodup ∧ m ∈ p := by
    intro m
    rw [Commit.conflict?, Commit.firstRepeated_eq_some]
    simp
  constructor
  · rintro ⟨p, m, q, hnames, hnodup, hmem, rfl⟩
    have hm := (hfirst m).2 ⟨p, q, hnames, hnodup, hmem⟩
    rw [Option.some.inj (hm.symm.trans h)]
  · rintro rfl
    obtain ⟨p, q, hnames, hnodup, hmem⟩ := (hfirst n).1 h
    exact ⟨p, n, q, hnames, hnodup, hmem, rfl⟩

/-- An entry is refused if there is an error for it, and breaks no rule if there is none. -/
lemma entryError?_spec (h : KeysOf before seen) (e : StagedCommit) :
    (∀ err, entryError? seen e = some err ↔ Refused before e err) ∧
      (entryError? seen e = none ↔ ∀ rule : Rule, ¬rule.Broken before e) := by
  have hcanonical : Rule.canonicalKey.Broken before e ↔ e.origin.key? ≠ some e.key :=
    not_congr SectionKey.canonical_iff
  have hnew : Rule.newKey.Broken before e ↔ e.key ∈ seen := (h e.key).symm
  rw [entryError?]
  -- the first condition that holds belongs to the first rule that is broken
  by_cases hkey : e.origin.key? ≠ some e.key
  · rw [if_pos hkey]
    exact refused_of_first (hcanonical.2 hkey) (fun r hr => absurd hr (Nat.not_lt_zero _))
      fun _ => Iff.rfl
  rw [if_neg hkey]
  by_cases hseen : e.key ∈ seen
  · rw [if_pos hseen]
    refine refused_of_first (hnew.2 hseen) (fun r hr => ?_) fun _ => Iff.rfl
    cases r with
    | canonicalKey => exact hcanonical.not.2 hkey
    | _ => simp [Rule.place] at hr
  rw [if_neg hseen]
  by_cases hempty : e.commit.isEmpty = true
  · rw [if_pos hempty]
    refine refused_of_first (broken_operations_iff.2 hempty) (fun r hr => ?_) fun _ => Iff.rfl
    cases r with
    | canonicalKey => exact hcanonical.not.2 hkey
    | newKey => exact hnew.not.2 hseen
    | _ => simp [Rule.place] at hr
  rw [if_neg hempty]
  have hearlier : ∀ r : Rule, r.place < Rule.oneBucket.place → ¬r.Broken before e := by
    intro r hr
    cases r with
    | canonicalKey => exact hcanonical.not.2 hkey
    | newKey => exact hnew.not.2 hseen
    | operations => exact broken_operations_iff.not.2 hempty
    | oneBucket => exact absurd hr (Nat.lt_irrefl _)
  cases hconflict : e.commit.conflict? with
  | some n =>
    refine refused_of_first ?_ hearlier (reports_oneBucket_iff hconflict)
    rw [broken_oneBucket_iff, ← Commit.conflict?_eq_none, hconflict]
    exact Option.some_ne_none n
  | none =>
    have hnone : ∀ rule : Rule, ¬rule.Broken before e := by
      intro rule
      cases rule with
      | oneBucket =>
        exact broken_oneBucket_iff.not.2 (not_not.2 (Commit.conflict?_eq_none.1 hconflict))
      | _ => exact hearlier _ (by decide)
    refine ⟨fun err => iff_of_false (Option.some_ne_none err).symm ?_, iff_of_true rfl hnone⟩
    rintro ⟨rule, hbroken, -⟩
    exact hnone rule hbroken

/-! ### All entries -/

lemma checkEntries_eq_ok_iff (h : KeysOf before seen) :
    checkEntries seen es = .ok () ↔ Blameless before es := by
  induction es generalizing before seen with
  | nil => exact iff_of_true rfl trivial
  | cons e es ih =>
    obtain ⟨hrefused, hnone⟩ := entryError?_spec h e
    rw [checkEntries_cons, Blameless, ← hnone]
    cases entryError? seen e with
    | some err => simp
    | none => simpa using ih (h.cons e)

/-- The error is that of the first entry that breaks a rule. -/
lemma checkEntries_eq_error_iff (h : KeysOf before seen) :
    checkEntries seen es = .error err ↔ ∃ mid e rest, es = mid ++ e :: rest ∧
      Blameless before mid ∧ Refused (before ++ mid) e err := by
  induction es generalizing before seen with
  | nil => simp [checkEntries]
  | cons x es ih =>
    obtain ⟨hrefused, hnone⟩ := entryError?_spec h x
    rw [checkEntries_cons]
    cases hx : entryError? seen x with
    | some err' =>
      constructor
      · intro herr
        refine ⟨[], x, es, rfl, trivial, ?_⟩
        rw [List.append_nil, ← hrefused, hx, Except.error.inj herr]
      · rintro ⟨mid, e, rest, hsplit, hmid, herr⟩
        cases mid with
        | nil =>
          obtain ⟨rfl, rfl⟩ := List.cons.inj hsplit
          rw [List.append_nil, ← hrefused, hx] at herr
          rw [Option.some.inj herr]
        | cons y mid =>
          obtain ⟨rfl, rfl⟩ := List.cons.inj hsplit
          rw [hnone.2 hmid.1] at hx
          cases hx
    | none =>
      rw [ih (h.cons x)]
      constructor
      · rintro ⟨mid, e, rest, rfl, hmid, herr⟩
        refine ⟨x :: mid, e, rest, rfl, ⟨hnone.1 hx, hmid⟩, ?_⟩
        rwa [List.append_assoc] at herr
      · rintro ⟨mid, e, rest, hsplit, hmid, herr⟩
        cases mid with
        | nil =>
          obtain ⟨rfl, rfl⟩ := List.cons.inj hsplit
          rw [List.append_nil, ← hrefused, hx] at herr
          cases herr
        | cons y mid =>
          obtain ⟨rfl, rfl⟩ := List.cons.inj hsplit
          exact ⟨mid, e, rest, rfl, hmid.2, by rwa [List.append_assoc]⟩

/-- Entries that break no rule are those of a well-formed area. -/
lemma Blameless.wellFormed (h : Blameless before es) :
    WellFormed ⟨es⟩ ∧ ∀ e ∈ es, ∀ d ∈ before, d.key ≠ e.key := by
  induction es generalizing before with
  | nil => exact ⟨wellFormed_empty, fun e he => absurd he List.not_mem_nil⟩
  | cons x es ih =>
    obtain ⟨hx, hrest⟩ := h
    obtain ⟨hwf, hfresh⟩ := ih hrest
    have hcanonical := SectionKey.canonical_iff.1 (not_not.1 (hx .canonicalKey))
    have hfilled := eq_false_of_ne_true (broken_operations_iff.not.1 (hx .operations))
    have hsole := not_not.1 (broken_oneBucket_iff.not.1 (hx .oneBucket))
    refine ⟨⟨?_, ?_, ?_, ?_⟩, ?_⟩
    · exact List.forall_mem_cons.2 ⟨hcanonical, hwf.keys⟩
    · refine List.nodup_cons.2 ⟨fun hmem => ?_, hwf.distinct⟩
      obtain ⟨e, he, hkey⟩ := List.mem_map.1 hmem
      exact hfresh e he x (by simp) hkey.symm
    · exact List.forall_mem_cons.2 ⟨hfilled, hwf.filled⟩
    · exact List.forall_mem_cons.2 ⟨hsole, hwf.sole⟩
    · refine List.forall_mem_cons.2 ⟨fun d hd hkey => hx .newKey ⟨d, hd, hkey⟩, ?_⟩
      exact fun e he d hd => hfresh e he d (List.mem_append_left _ hd)

lemma keysOf_nil : KeysOf [] [] := by
  intro k
  simp

lemma ofEntries_eq_ok_iff : ofEntries es = .ok a ↔ WellFormed ⟨es⟩ ∧ a = ⟨es⟩ := by
  constructor
  · intro h
    obtain ⟨⟨⟩, hcheck, hb⟩ := bind_eq_ok_iff.1 h
    exact ⟨((checkEntries_eq_ok_iff keysOf_nil).1 hcheck).wellFormed.1, (Except.ok.inj hb).symm⟩
  · rintro ⟨hwf, rfl⟩
    exact hwf.ofEntries

lemma ofEntries_eq_error_iff : ofEntries es = .error err ↔ ∃ before e after,
    es = before ++ e :: after ∧ Blameless [] before ∧ Refused before e err := by
  have hcheck : ofEntries es = .error err ↔ checkEntries [] es = .error err := by
    rw [ofEntries, bind_eq_error_iff]
    refine or_iff_left ?_
    rintro ⟨-, -, hpure⟩
    cases hpure
  rw [hcheck, checkEntries_eq_error_iff keysOf_nil]
  simp only [List.nil_append]

/-! ### Staging what a list holds -/

/-- Stages the commits of a list one after another. -/
def restagings (es : List StagedCommit) : List Edit :=
  es.map fun e => .stage e.origin (.ofCommit e.commit)

/-- The last entry of a well-formed area is what staging its commit adds to the others. -/
lemma after_stage_last (h : WellFormed ⟨es ++ [e]⟩) :
    (Edit.stage e.origin (.ofCommit e.commit)).after ⟨es⟩ = ⟨es ++ [e]⟩ := by
  have hlast : e ∈ es ++ [e] := by simp
  have hnew : ∀ x ∈ es, x.key ≠ e.key := by
    intro x hx hkey
    have hdistinct := h.distinct
    rw [List.map_append, List.nodup_append] at hdistinct
    exact hdistinct.2.2 _ (List.mem_map_of_mem hx) _ (List.mem_singleton.2 rfl) hkey
  have hfind : find? ⟨es⟩ e.key = none := find?_eq_none_iff.2 hnew
  have hstage : stage ⟨es⟩ e.origin (.ofCommit e.commit) = .ok ⟨es ++ [e]⟩ := by
    rw [stage_eq (h.keys e hlast), hfind, Option.getD_none, Commit.empty_overlay,
      Commit.ofPatch_ofCommit, checked_eq_ok_iff.2 ⟨h.sole e hlast, rfl⟩]
    exact congrArg Except.ok (put_of_new (h.filled e hlast) hnew)
  rw [Edit.after, Edit.outcome, hstage]

/-- The entries of a well-formed area come about by staging them one after another. -/
lemma edited_restagings (h : WellFormed ⟨es⟩) : empty.edited (restagings es) = ⟨es⟩ := by
  induction es using List.reverseRecOn with
  | nil => rfl
  | append_singleton es e ih =>
    have hfront : WellFormed ⟨es⟩ := h.of_sublist (List.sublist_append_left es [e])
    rw [edited, restagings, List.map_append, List.foldl_append]
    change Edit.after (empty.edited (restagings es)) _ = _
    rw [ih hfront]
    exact after_stage_last h

lemma restagings_isStaging : ∀ e ∈ restagings es, e.IsStaging ∧ e.SlashFree := by
  intro e he
  obtain ⟨x, -, rfl⟩ := List.mem_map.1 he
  refine ⟨trivial, fun s hs => ?_⟩
  rw [← Option.some.inj hs]
  exact SectionAddress.slashFree_ofString x.key.text

/-- A list is taken for a staging area exactly if staging can make it, and is then kept as it is;
any other list is refused with the error of its first entry that breaks a rule. -/
theorem ofEntries_isOk_iff_staged (es : List StagedCommit) :
    ((∃ a, ofEntries es = .ok a) ↔ ∃ edits : List Edit,
      (∀ e ∈ edits, e.IsStaging ∧ e.SlashFree) ∧ (empty.edited edits).entries = es) ∧
    (∀ a, ofEntries es = .ok a → a.entries = es) ∧
    ∀ err, ofEntries es = .error err ↔ ∃ before e after, es = before ++ e :: after ∧
      Blameless [] before ∧ Refused before e err := by
  refine ⟨⟨?_, ?_⟩, ?_, ?_⟩
  · rintro ⟨a, ha⟩
    obtain ⟨hwf, -⟩ := ofEntries_eq_ok_iff.1 ha
    refine ⟨restagings es, restagings_isStaging, ?_⟩
    rw [edited_restagings hwf]
  · rintro ⟨edits, hedits, rfl⟩
    have hwf : (empty.edited edits).WellFormed :=
      wellFormed_edited (fun e he => (hedits e he).2) fun e he => (hedits e he).1.sole
    exact ⟨_, hwf.ofEntries⟩
  · intro a ha
    rw [(ofEntries_eq_ok_iff.1 ha).2]
  · intro err
    exact ofEntries_eq_error_iff

/-- The key is looked at before the commit, which has no operations either. -/
example : ofEntries [⟨⟨"stable//x86_64"⟩, .empty⟩] = .error (.incompleteSection "stable//x86_64") := by
  decide

end PackageStaging.StagingArea
