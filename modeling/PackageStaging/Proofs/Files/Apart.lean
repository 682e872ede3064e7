/-
# Trees that differ at one place

Two trees may differ at one place, where neither has a directory (`Apart`).  A path along which this
place is not looked up (`Passes`) cannot tell them apart: it leads to the same in both
(`Apart.locate_eq`).  Changes at other places are refused in both, or carried out in both and leave
the trees apart as before (`AlikeChange`).
-/
import PackageStaging.Proofs.Files.Changes

namespace PackageStaging.FileTree

variable {t t' u u' : FileTree} {here r x y : Route} {segments : List Bytes} {target : Target}
  {p q : Path} {content : Bytes}

/-- The places that are looked up along segments: each that a name leads to, as long as there are
directories, and the one that the segments lead to. -/
def way (t : FileTree) : Route → List Bytes → List Route
  | here, [] => [here]
  | here, s :: rest =>
    if s = [] ∨ s = [Path.dot] then way t here rest
    else if s = [Path.dot, Path.dot] then way t here.dropLast rest
    else (here ++ [s]) ::
      if t.node? (here ++ [s]) = some .directory then way t (here ++ [s]) rest else []

/-- The place is looked up along the path. -/
def Passes (t : FileTree) (here : Route) (p : Path) (r : Route) : Prop :=
  p.bytes ≠ [] ∧ r ∈ t.way (if p.isAbsolute then [] else here) (Path.segments p.bytes)

/-- The path leads to the place. -/
def LeadsTo (t : FileTree) (here : Route) (p : Path) (r : Route) : Prop :=
  ∃ b, t.locate here p = .ok ⟨r, b⟩

/-- The trees differ at this place at most, and neither has a directory there. -/
structure Apart (r : Route) (t t' : FileTree) : Prop where
  same : ∀ x, x ≠ r → t'.node? x = t.node? x
  file : t.node? r ≠ some .directory
  file' : t'.node? r ≠ some .directory

/-- The trees have the same directories. -/
def SameDirectories (t t' : FileTree) : Prop :=
  ∀ x, t'.node? x = some .directory ↔ t.node? x = some .directory

/-! ### Ways -/

lemma way_of_name {s : Bytes} (hs : IsName s) (rest : List Bytes) :
    t.way here (s :: rest) = (here ++ [s]) ::
      if t.node? (here ++ [s]) = some .directory then t.way (here ++ [s]) rest else [] := by
  rw [way, if_neg (not_or.2 ⟨hs.nonempty, hs.not_here⟩), if_neg hs.not_up]

lemma mem_way_of_goes (h : t.Goes here segments target) : target.route ∈ t.way here segments := by
  induction h with
  | stay => exact .head _
  | skip hs _ ih => rwa [way, if_pos hs]
  | up _ ih => rwa [way, if_neg (by simp), if_pos rfl]
  | last hs | blank hs =>
    rw [way_of_name hs]
    exact .head _
  | enter hs _ hdir _ ih =>
    rw [way_of_name hs, if_pos hdir]
    exact .tail _ ih

/-- Segments that lead somewhere come by directories only. -/
lemma way_of_goes (h : t.Goes here segments target) :
    ∀ x ∈ t.way here segments, t.node? x = some .directory ∨ x = target.route := by
  have hblanks : ∀ {rest : List Bytes} {here : Route}, (∀ s ∈ rest, s = []) →
      t.way here rest = [here] := by
    intro rest here hrest
    induction rest with
    | nil => rfl
    | cons s rest ih =>
      rw [way, if_pos (.inl (hrest s (.head _)))]
      exact ih fun s' hs' => hrest s' (.tail _ hs')
  have hlast : ∀ {here : Route} {s : Bytes} {rest : List Bytes}, IsName s →
      (∀ s' ∈ rest, s' = []) → ∀ x ∈ t.way here (s :: rest), x = here ++ [s] := by
    intro here s rest hs hrest x hx
    rw [way_of_name hs, hblanks hrest] at hx
    rcases List.mem_cons.1 hx with rfl | hx
    · rfl
    · split_ifs at hx
      · exact List.mem_singleton.1 hx
      · exact nomatch hx
  induction h with
  | stay => exact fun x hx => .inr (List.mem_singleton.1 hx)
  | skip hs _ ih => rwa [way, if_pos hs]
  | up _ ih => rwa [way, if_neg (by simp), if_pos rfl]
  | last hs => exact fun x hx => .inr (hlast hs (fun s' hs' => absurd hs' List.not_mem_nil) x hx)
  | blank hs _ hblank => exact fun x hx => .inr (hlast hs hblank x hx)
  | enter hs _ hdir _ ih =>
    intro x hx
    rw [way_of_name hs, if_pos hdir] at hx
    rcases List.mem_cons.1 hx with rfl | hx
    · exact .inl hdir
    · exact ih x hx

/-- The place that a path leads to is looked up. -/
lemma passes_of_locate (h : t.locate here p = .ok target) : t.Passes here p target.route := by
  rw [locate] at h
  split_ifs at h with hempty habsolute
  · exact ⟨hempty, by rw [if_pos habsolute]; exact mem_way_of_goes (goes_of_follow h)⟩
  · exact ⟨hempty, by rw [if_neg habsolute]; exact mem_way_of_goes (goes_of_follow h)⟩

/-- A path that leads somewhere comes by no other file. -/
lemma not_passes_of_locate (h : t.locate here p = .ok target)
    (hfile : t.node? r ≠ some .directory) (hne : target.route ≠ r) : ¬t.Passes here p r := by
  rintro ⟨hempty, hmem⟩
  rw [locate, if_neg hempty] at h
  rcases way_of_goes (goes_of_follow h) r hmem with hdir | heq
  · exact hfile hdir
  · exact hne heq.symm

namespace SameDirectories

variable (h : t.SameDirectories t')

include h

lemma keeps : t.Keeps t' := fun x => (h x).2

lemma keeps' : t'.Keeps t := fun x => (h x).1

lemma way_eq : t'.way here segments = t.way here segments := by
  induction segments generalizing here with
  | nil => rfl
  | cons s rest ih => simp only [way, ih, h (here ++ [s])]

lemma passes_iff : t'.Passes here p r ↔ t.Passes here p r := by
  rw [Passes, Passes, h.way_eq]

lemma leadsTo_iff : t'.LeadsTo here p r ↔ t.LeadsTo here p r :=
  ⟨fun ⟨b, hb⟩ => ⟨b, locate_of_keeps hb h.keeps'⟩, fun ⟨b, hb⟩ => ⟨b, locate_of_keeps hb h.keeps⟩⟩

end SameDirectories

/-! ### What the trees have in common -/

namespace Apart

lemma sameDirectories (h : Apart r t t') : t.SameDirectories t' := by
  intro x
  by_cases hx : x = r
  · rw [hx]
    exact iff_of_false h.file' h.file
  · rw [h.same x hx]

/-- Segments along which the place is not looked up lead to the same, or are refused alike. -/
lemma follow_eq (h : Apart r t t') (hr : r ∉ t.way here segments) :
    t'.follow here segments = t.follow here segments := by
  induction segments generalizing here with
  | nil => rfl
  | cons s rest ih =>
    rw [way] at hr
    rw [follow, follow]
    by_cases hskip : s = [] ∨ s = [Path.dot]
    · rw [if_pos hskip] at hr ⊢
      rw [if_pos hskip]
      exact ih hr
    rw [if_neg hskip] at hr ⊢
    rw [if_neg hskip]
    by_cases hup : s = [Path.dot, Path.dot]
    · rw [if_pos hup] at hr ⊢
      rw [if_pos hup]
      exact ih hr
    rw [if_neg hup, List.mem_cons, not_or] at hr
    rw [if_neg hup, if_neg hup]
    -- the next place is looked up, so both trees have the same there
    simp only [h.same _ (Ne.symm hr.1)]
    cases hnode : t.node? (here ++ [s]) with
    | none => rfl
    | some n =>
      cases n with
      | file content => rfl
      | directory =>
        rw [hnode, if_pos rfl] at hr
        rw [ih hr.2]

lemma locate_eq (h : Apart r t t') (hp : ¬t.Passes here p r) : t'.locate here p = t.locate here p := by
  rw [locate, locate]
  by_cases hempty : p.bytes = []
  · rw [if_pos hempty, if_pos hempty]
  · rw [if_neg hempty, if_neg hempty]
    exact h.follow_eq fun hmem => hp ⟨hempty, hmem⟩

lemma find_eq (h : Apart r t t') (hp : ¬t.Passes here p r) : t'.find here p = t.find here p := by
  rw [find, find, h.locate_eq hp]
  cases htarget : t.locate here p with
  | error f => rfl
  | ok target =>
    have hne : target.route ≠ r := fun heq => hp (heq ▸ passes_of_locate htarget)
    have hsame := h.same _ hne
    simp only [bind, Except.bind, hsame]

lemma read_eq (h : Apart r t t') (hp : ¬t.Passes here p r) : t'.read here p = t.read here p := by
  rw [read, read, h.find_eq hp]

lemma size_eq (h : Apart r t t') (hp : ¬t.Passes here p r) : t'.size here p = t.size here p := by
  rw [size, size, h.find_eq hp]

/-- Only a path that leads to the place can find a file in one tree and none in the other. -/
lemma isFile_eq (h : Apart r t t') (hp : ¬t.LeadsTo here p r) :
    t'.isFile here p = t.isFile here p := by
  have hsame := h.sameDirectories
  cases htarget : t.locate here p with
  | ok target =>
    have htarget' := locate_of_keeps htarget hsame.keeps
    have hne : target.route ≠ r := fun heq => hp ⟨target.asDirectory, heq ▸ htarget⟩
    simp only [isFile, find, htarget, htarget', bind, Except.bind, h.same _ hne]
  | error f =>
    cases htarget' : t'.locate here p with
    | ok target =>
      have hok := locate_of_keeps htarget' hsame.keeps'
      rw [htarget] at hok
      cases hok
    | error f' => simp only [isFile, find, htarget, htarget', bind, Except.bind]

end Apart

/-! ### Changes of both trees -/

/-- The trees `u` and `u'` have come about by changes of `t` and `t'` that leave alone the place `r`
and all directories. -/
structure Alike (r : Route) (t t' u u' : FileTree) : Prop where
  apart : Apart r u u'
  place : u.node? r = t.node? r
  place' : u'.node? r = t'.node? r
  directories : t.SameDirectories u

/-- Changes of two trees that are refused for the same reason, or carried out alike. -/
inductive AlikeChange (r : Route) (t t' : FileTree) :
    Except SystemFault FileTree → Except SystemFault FileTree → Prop
  | refused (f : SystemFault) : AlikeChange r t t' (.error f) (.error f)
  | done {u u' : FileTree} (h : Alike r t t' u u') : AlikeChange r t t' (.ok u) (.ok u')

lemma Alike.refl (h : Apart r t t') : Alike r t t' t t' := ⟨h, rfl, rfl, fun _ => Iff.rfl⟩

lemma Alike.trans {v v' : FileTree} (h : Alike r t t' u u') (h' : Alike r u u' v v') :
    Alike r t t' v v' where
  apart := h'.apart
  place := h'.place.trans h.place
  place' := h'.place'.trans h.place'
  directories x := (h'.directories x).trans (h.directories x)

namespace Apart

variable (h : Apart r t t') (hx : x ≠ r)

include h hx

lemma put (hfile : t.node? x ≠ some .directory) (content : Bytes) :
    Alike r t t' (t.put x (.file content)) (t'.put x (.file content)) := by
  have hfile' : t'.node? x ≠ some .directory := by rwa [Ne, h.sameDirectories x]
  refine ⟨⟨fun y hy => ?_, ?_, ?_⟩, ?_, ?_, fun y => ?_⟩
  · rw [node?_put_of_ne hfile, node?_put_of_ne hfile', h.same y hy]
  · rw [node?_put_of_ne hfile, if_neg hx]
    exact h.file
  · rw [node?_put_of_ne hfile', if_neg hx]
    exact h.file'
  · rw [node?_put_of_ne hfile, if_neg hx]
  · rw [node?_put_of_ne hfile', if_neg hx]
  · rw [node?_put_of_ne hfile]
    by_cases hy : x = y
    · rw [if_pos hy, ← hy]
      exact iff_of_false (by simp) hfile
    · rw [if_neg hy]

lemma remove (hfile : t.node? x ≠ some .directory) :
    Alike r t t' (t.remove x) (t'.remove x) := by
  have hfile' : t'.node? x ≠ some .directory := by rwa [Ne, h.sameDirectories x]
  refine ⟨⟨fun y hy => ?_, ?_, ?_⟩, ?_, ?_, fun y => ?_⟩
  · rw [node?_remove_of_ne hfile, node?_remove_of_ne hfile', h.same y hy]
  · rw [node?_remove_of_ne hfile, if_neg hx]
    exact h.file
  · rw [node?_remove_of_ne hfile', if_neg hx]
    exact h.file'
  · rw [node?_remove_of_ne hfile, if_neg hx]
  · rw [node?_remove_of_ne hfile', if_neg hx]
  · rw [node?_remove_of_ne hfile]
    by_cases hy : x = y
    · rw [if_pos hy, ← hy]
      exact iff_of_false (by simp) hfile
    · rw [if_neg hy]

omit hx in
/-- Whether the place is in a directory is the same in both trees. -/
lemma requireParent_eq (hparent : x.dropLast ≠ r) : t'.requireParent x = t.requireParent x := by
  rw [requireParent, requireParent, h.same _ hparent]

/-- A file is written in both trees. -/
lemma write (hp : t.locate here p = .ok ⟨x, false⟩) (hparent : x.dropLast ≠ r) :
    AlikeChange r t t' (t.write here p content) (t'.write here p content) := by
  have hp' := locate_of_keeps hp h.sameDirectories.keeps
  simp only [FileTree.write, hp, hp', bind, Except.bind, h.same x hx, h.requireParent_eq hparent,
    Bool.false_eq_true, if_false]
  cases hnode : t.node? x with
  | none =>
    cases t.requireParent x with
    | error f => exact .refused f
    | ok v => exact .done (h.put hx (not_directory_of_none hnode) content)
  | some n =>
    cases n with
    | directory => exact .refused _
    | file old => exact .done (h.put hx (not_directory_of_file hnode) content)

/-- A file is removed from both trees. -/
lemma removeFile (hp : t.locate here p = .ok ⟨x, false⟩) :
    AlikeChange r t t' (t.removeFile here p) (t'.removeFile here p) := by
  have hp' := locate_of_keeps hp h.sameDirectories.keeps
  simp only [FileTree.removeFile, find, hp, hp', bind, Except.bind, h.same x hx,
    Bool.false_eq_true, if_false]
  cases hnode : t.node? x with
  | none => exact .refused _
  | some n =>
    cases n with
    | directory => exact .refused _
    | file old => exact .done (h.remove hx (not_directory_of_file hnode))

/-- A file takes the place of another one in both trees. -/
lemma replaceFile (hp : t.locate here p = .ok ⟨x, false⟩) (hq : t.locate here q = .ok ⟨y, false⟩)
    (hy : y ≠ r) (hparent : y.dropLast ≠ r) :
    AlikeChange r t t' (t.replaceFile here p q) (t'.replaceFile here p q) := by
  have hp' := locate_of_keeps hp h.sameDirectories.keeps
  have hq' := locate_of_keeps hq h.sameDirectories.keeps
  simp only [FileTree.replaceFile, find, hp, hp', hq, hq', bind, Except.bind, h.same x hx,
    h.same y hy, h.requireParent_eq hparent, Bool.false_eq_true, if_false]
  cases hnode : t.node? x with
  | none => exact .refused _
  | some n =>
    cases n with
    | directory => exact .refused _
    | file content =>
      have hremoved := h.remove hx (not_directory_of_file hnode)
      dsimp only
      split
      · exact .refused _
      · next hfile =>
        cases t.requireParent y with
        | error f => exact .refused f
        | ok v =>
          refine .done (hremoved.trans (hremoved.apart.put hy ?_ content))
          rwa [Ne, hremoved.directories y]

end Apart

end PackageStaging.FileTree
