/-
# Ways through a tree of files

A path that enters a directory leads, with one more name behind it, to the place of that name in
the directory (`Enters.locate_entry`).  A way depends on nothing but the directories that it passes,
so it stays the same as long as these are kept (`locate_of_keeps`).
-/
import Mathlib.Tactic.Lemma
import Mathlib.Tactic.SplitIfs
import PackageStaging.FileTree

namespace PackageStaging

/-! ### Segments -/

namespace Path

lemma segments_ne_nil (bytes : Bytes) : segments bytes ≠ [] := by
  cases bytes with
  | nil => simp [segments]
  | cons b rest =>
    rw [segments]
    split
    · simp
    · split <;> simp

/-- A separator ends the segment before it. -/
lemma segments_append (front rest : Bytes) :
    segments (front ++ slash :: rest) = segments front ++ segments rest := by
  induction front with
  | nil => simp [segments]
  | cons b front ih =>
    rw [List.cons_append, segments, segments, ih]
    split
    · rfl
    · cases hs : segments front with
      | nil => exact absurd hs (segments_ne_nil front)
      | cons s ss => rfl

lemma segments_of_not_mem {name : Bytes} (h : slash ∉ name) : segments name = [name] := by
  induction name with
  | nil => rfl
  | cons b rest ih =>
    rw [List.mem_cons, not_or] at h
    rw [segments, if_neg (Ne.symm h.1), ih h.2]

end Path

/-- A segment that is the name of an entry. -/
structure IsName (s : Bytes) : Prop where
  nonempty : s ≠ []
  not_here : s ≠ [Path.dot]
  not_up : s ≠ [Path.dot, Path.dot]
  short : s.length ≤ FileTree.maxNameLength

namespace FileTree

variable {t t' : FileTree} {here here' dir : Route} {s name : Bytes} {rest : List Bytes}
  {target : Target} {p : Path}

/-! ### Following segments -/

/-- The way along segments from a place to a target, step by step. -/
inductive Goes (t : FileTree) : Route → List Bytes → Target → Prop
  | stay {here : Route} : Goes t here [] ⟨here, true⟩
  | skip {here : Route} {s : Bytes} {rest : List Bytes} {target : Target}
      (hs : s = [] ∨ s = [Path.dot]) (h : Goes t here rest target) : Goes t here (s :: rest) target
  | up {here : Route} {rest : List Bytes} {target : Target}
      (h : Goes t here.dropLast rest target) : Goes t here ([Path.dot, Path.dot] :: rest) target
  | last {here : Route} {s : Bytes} (hs : IsName s) : Goes t here [s] ⟨here ++ [s], false⟩
  | blank {here : Route} {s : Bytes} {rest : List Bytes} (hs : IsName s) (hrest : rest ≠ [])
      (hblank : ∀ s' ∈ rest, s' = []) : Goes t here (s :: rest) ⟨here ++ [s], true⟩
  | enter {here : Route} {s : Bytes} {rest : List Bytes} {target : Target} (hs : IsName s)
      (hrest : ∃ s' ∈ rest, s' ≠ []) (hdir : t.node? (here ++ [s]) = some .directory)
      (h : Goes t (here ++ [s]) rest target) : Goes t here (s :: rest) target

lemma all_blank_iff : rest.all (· = []) = true ↔ ∀ s' ∈ rest, s' = [] := by
  rw [List.all_eq_true]
  exact forall₂_congr fun s' _ => decide_eq_true_iff

lemma isName_of_not (hskip : ¬(s = [] ∨ s = [Path.dot])) (hup : s ≠ [Path.dot, Path.dot])
    (hlong : ¬maxNameLength < s.length) : IsName s where
  nonempty hs := hskip (.inl hs)
  not_here hs := hskip (.inr hs)
  not_up := hup
  short := Nat.not_lt.1 hlong

lemma goes_of_follow (h : t.follow here rest = .ok target) : t.Goes here rest target := by
  induction rest generalizing here with
  | nil =>
    rw [← Except.ok.inj h]
    exact .stay
  | cons s rest ih =>
    rw [follow] at h
    split_ifs at h with hskip hup hlong hlast hblank
    · exact .skip hskip (ih h)
    · rw [hup]
      exact .up (ih h)
    · have hs := isName_of_not hskip hup hlong
      rw [hlast, ← Except.ok.inj h]
      exact .last hs
    · have hs := isName_of_not hskip hup hlong
      rw [← Except.ok.inj h]
      exact .blank hs hlast (all_blank_iff.1 hblank)
    · have hs := isName_of_not hskip hup hlong
      rw [all_blank_iff] at hblank
      dsimp only at h
      split at h
      · cases h
      · cases h
      · next hdir => exact .enter hs (by simpa using hblank) hdir (ih h)

lemma Goes.follow (h : t.Goes here rest target) : t.follow here rest = .ok target := by
  induction h with
  | stay => rfl
  | skip hs _ ih => rw [FileTree.follow, if_pos hs, ih]
  | up _ ih =>
    rw [FileTree.follow, if_neg (by simp), if_pos rfl, ih]
  | last hs =>
    have hskip := not_or.2 ⟨hs.nonempty, hs.not_here⟩
    rw [FileTree.follow, if_neg hskip, if_neg hs.not_up, if_neg (Nat.not_lt.2 hs.short)]
    rfl
  | blank hs hrest hblank =>
    have hskip := not_or.2 ⟨hs.nonempty, hs.not_here⟩
    rw [FileTree.follow, if_neg hskip, if_neg hs.not_up, if_neg (Nat.not_lt.2 hs.short)]
    dsimp only
    rw [if_neg hrest, if_pos (all_blank_iff.2 hblank)]
  | @enter here s rest target hs hrest hdir _ ih =>
    obtain ⟨s', hs', hne⟩ := hrest
    have hskip := not_or.2 ⟨hs.nonempty, hs.not_here⟩
    have hsome : ¬ rest.all (· = []) = true := fun hall => hne (all_blank_iff.1 hall s' hs')
    rw [FileTree.follow, if_neg hskip, if_neg hs.not_up, if_neg (Nat.not_lt.2 hs.short)]
    dsimp only
    rw [if_neg (List.ne_nil_of_mem hs'), if_neg hsome]
    simp only [hdir, ih]

/-- Every directory of one tree is one of the other. -/
def Keeps (t t' : FileTree) : Prop :=
  ∀ r, t.node? r = some .directory → t'.node? r = some .directory

lemma Goes.mono (h : t.Goes here rest target) (ht : t.Keeps t') : t'.Goes here rest target := by
  induction h with
  | stay => exact .stay
  | skip hs _ ih => exact .skip hs ih
  | up _ ih => exact .up ih
  | last hs => exact .last hs
  | blank hs hrest hblank => exact .blank hs hrest hblank
  | enter hs hrest hdir _ ih => exact .enter hs hrest (ht _ hdir) ih

/-- Behind a directory, a name leads into it. -/
lemma Goes.append_name (h : t.Goes here rest target) (hdir : t.node? target.route = some .directory)
    (hname : IsName name) : t.Goes here (rest ++ [name]) ⟨target.route ++ [name], false⟩ := by
  induction h with
  | stay => exact .last hname
  | skip hs _ ih => exact .skip hs (ih hdir)
  | up _ ih => exact .up (ih hdir)
  | last hs => exact .enter hs ⟨name, .head _, hname.nonempty⟩ hdir (.last hname)
  | @blank here s rest hs _ hblank =>
    refine .enter hs ⟨name, List.mem_append_right _ (.head _), hname.nonempty⟩ hdir ?_
    -- nothing but blanks stands between the directory and the name
    rename_i hne
    clear hdir hne
    induction rest with
    | nil => exact .last hname
    | cons s' rest ih =>
      exact .skip (.inl (hblank s' (.head _))) (ih fun s'' hs'' => hblank s'' (.tail _ hs''))
  | enter hs hrest hin _ ih =>
    obtain ⟨s', hs', hne⟩ := hrest
    exact .enter hs ⟨s', List.mem_append_left _ hs', hne⟩ hin (ih hdir)

/-- A blank segment at the end changes nothing of where a way leads. -/
lemma Goes.of_append_blank (h : t.Goes here (rest ++ [[]]) target) :
    ∃ b, t.Goes here rest ⟨target.route, b⟩ := by
  induction rest generalizing here with
  | nil =>
    rw [List.nil_append] at h
    cases h with
    | skip _ h => exact ⟨target.asDirectory, h⟩
    | last hs => exact absurd rfl hs.nonempty
    | blank hs => exact absurd rfl hs.nonempty
    | enter hs => exact absurd rfl hs.nonempty
  | cons s rest ih =>
    rw [List.cons_append] at h
    -- the constructors of `Goes` fix the shape of the list, so the blank is named apart
    generalize hall : rest ++ [[]] = all at h
    cases h with
    | skip hs h =>
      subst hall
      obtain ⟨b, hb⟩ := ih h
      exact ⟨b, .skip hs hb⟩
    | up h =>
      subst hall
      obtain ⟨b, hb⟩ := ih h
      exact ⟨b, .up hb⟩
    | last => exact absurd hall (by simp)
    | blank hs _ hblank =>
      subst hall
      by_cases hrest : rest = []
      · rw [hrest]
        exact ⟨false, .last hs⟩
      · exact ⟨true, .blank hs hrest fun s' hs' => hblank s' (List.mem_append_left _ hs')⟩
    | enter hs hrest hdir h =>
      subst hall
      obtain ⟨s', hs', hne⟩ := hrest
      obtain ⟨b, hb⟩ := ih h
      have hmem : s' ∈ rest := by simpa [hne] using hs'
      exact ⟨b, .enter hs ⟨s', hmem, hne⟩ hdir hb⟩

/-! ### Locating paths -/

lemma locate_of_keeps (h : t.locate here p = .ok target) (ht : t.Keeps t') :
    t'.locate here p = .ok target := by
  unfold locate at h ⊢
  split_ifs at h ⊢ with hempty
  · exact ((goes_of_follow h).mono ht).follow
  · exact ((goes_of_follow h).mono ht).follow

/-- A path enters a directory; the empty path stays in the working directory. -/
structure Enters (t : FileTree) (here : Route) (p : Path) (dir : Route) : Prop where
  directory : t.node? dir = some .directory
  way : if p.bytes = [] then here = dir else ∃ b, t.locate here p = .ok ⟨dir, b⟩

lemma Enters.mono (h : t.Enters here p dir) (ht : t.Keeps t') : t'.Enters here p dir where
  directory := ht dir h.directory
  way := by
    have hway := h.way
    split_ifs at hway ⊢
    · exact hway
    · obtain ⟨b, hb⟩ := hway
      exact ⟨b, locate_of_keeps hb ht⟩

/-- In a directory that a path enters, an entry is found under its name. -/
theorem Enters.locate_entry (h : t.Enters here p dir) {n : String}
    (hname : IsName (Utf8.encode n)) (hslash : Path.slash ∉ Utf8.encode n) :
    t.locate here (p.entry n) = .ok ⟨dir ++ [Utf8.encode n], false⟩ := by
  have hsegments := Path.segments_of_not_mem hslash
  have hrelative : (Path.ofString n).isAbsolute = false := by
    cases hn : Utf8.encode n with
    | nil => exact absurd hn hname.nonempty
    | cons b bs =>
      rw [hn, List.mem_cons, not_or] at hslash
      simp [Path.isAbsolute, Path.ofString, hn, Ne.symm hslash.1]
  have hway := h.way
  rw [Path.entry, Path.join, hrelative, if_neg Bool.false_ne_true]
  by_cases hp : p.bytes = []
  · -- the name alone is looked up in the working directory
    rw [if_pos hp] at hway
    subst hway
    have hbytes : (⟨(Path.ofString n).bytes⟩ : Path) = Path.ofString n := rfl
    rw [if_pos (.inl hp), hp, List.nil_append, hbytes, locate, hrelative]
    rw [if_neg (show (Path.ofString n).bytes ≠ [] from hname.nonempty),
      if_neg Bool.false_ne_true, Path.ofString, hsegments]
    exact (Goes.last hname).follow
  · rw [if_neg hp] at hway
    obtain ⟨b, hb⟩ := hway
    have habs : ∀ more, Path.isAbsolute ⟨p.bytes ++ more⟩ = p.isAbsolute := by
      intro more
      rw [Path.isAbsolute, Path.isAbsolute, List.head?_append]
      cases hbytes : p.bytes with
      | nil => exact absurd hbytes hp
      | cons b bs => rfl
    rw [locate, if_neg hp] at hb
    have hgoes := goes_of_follow hb
    split_ifs with hlast
    · -- the path ends with a separator, which gives the name the place of a blank segment
      have hlast := hlast.resolve_left hp
      obtain ⟨front, hfront⟩ := List.getLast?_eq_some_iff.1 hlast
      rw [hfront, Path.segments_append] at hgoes
      obtain ⟨b', hb'⟩ := Goes.of_append_blank hgoes
      rw [locate, if_neg (by simp [hp]), habs]
      rw [hfront, List.append_assoc, List.singleton_append, Path.ofString, Path.segments_append,
        hsegments]
      exact (hb'.append_name h.directory hname).follow
    · rw [locate, if_neg (by simp [hp]), habs, Path.ofString, Path.segments_append, hsegments]
      exact (hgoes.append_name h.directory hname).follow

end FileTree

end PackageStaging
