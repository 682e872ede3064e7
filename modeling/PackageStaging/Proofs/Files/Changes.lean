/-
# Changes of a tree of files

What the operations do to the nodes: each of them changes places that hold no directory
(`Touches`), so directories are kept.  At a place in a directory that is there, a file can be
written, put in the place of another one and removed.
-/
import PackageStaging.Proofs.Files.Ways
import PackageStaging.Proofs.Outcome

namespace PackageStaging.FileTree

variable {t t' : FileTree} {here r r' : Route} {p q : Path} {content : Bytes} {n : Node}

lemma ne_root (h : t.node? r ≠ some .directory) : r ≠ [] := by
  rintro rfl
  exact h rfl

lemma not_directory_of_file (h : t.node? r = some (.file content)) :
    t.node? r ≠ some .directory := by
  rw [h]
  simp

lemma not_directory_of_none (h : t.node? r = none) : t.node? r ≠ some .directory := by
  rw [h]
  simp

lemma node?_put_of_ne (h : t.node? r ≠ some .directory) (n : Node) (r' : Route) :
    (t.put r n).node? r' = if r = r' then some n else t.node? r' :=
  node?_put t r r' n (ne_root h)

lemma node?_remove_of_ne (h : t.node? r ≠ some .directory) (r' : Route) :
    (t.remove r).node? r' = if r = r' then none else t.node? r' :=
  node?_remove t r r' (ne_root h)

lemma keeps_put (h : t.node? r ≠ some .directory) (n : Node) : t.Keeps (t.put r n) := by
  intro r' hr'
  rw [node?_put_of_ne h, if_neg, hr']
  rintro rfl
  exact h hr'

lemma keeps_remove (h : t.node? r ≠ some .directory) : t.Keeps (t.remove r) := by
  intro r' hr'
  rw [node?_remove_of_ne h, if_neg, hr']
  rintro rfl
  exact h hr'

/-- A file is taken from one place and put at another one. -/
lemma node?_put_remove (h : t.node? r ≠ some .directory) (h' : t.node? r' ≠ some .directory)
    (n : Node) (x : Route) :
    ((t.remove r).put r' n).node? x =
      if r' = x then some n else if r = x then none else t.node? x := by
  rw [node?_put _ _ _ _ (ne_root h'), node?_remove_of_ne h]

lemma keeps_put_remove (h : t.node? r ≠ some .directory) (h' : t.node? r' ≠ some .directory)
    (n : Node) : t.Keeps ((t.remove r).put r' n) := by
  intro x hx
  rw [node?_put_remove h h', if_neg, if_neg, hx]
  · rintro rfl
    exact h hx
  · rintro rfl
    exact h' hx

/-! ### What a change does -/

lemma find_eq_ok (h : t.find here p = .ok (r, n)) :
    (∃ b, t.locate here p = .ok ⟨r, b⟩) ∧ t.node? r = some n := by
  obtain ⟨target, htarget, hrest⟩ := bind_eq_ok_iff.1 h
  split at hrest
  · cases hrest
  · next content hnode =>
    split_ifs at hrest
    cases hrest
    exact ⟨⟨target.asDirectory, htarget⟩, hnode⟩
  · next hnode =>
    cases hrest
    exact ⟨⟨target.asDirectory, htarget⟩, hnode⟩

/-- A file is written at the place that its path leads to. -/
lemma write_eq_ok (h : t.write here p content = .ok t') :
    ∃ target, t.locate here p = .ok target ∧ t.node? target.route ≠ some .directory ∧
      t' = t.put target.route (.file content) := by
  obtain ⟨target, htarget, hrest⟩ := bind_eq_ok_iff.1 h
  refine ⟨target, htarget, ?_⟩
  split at hrest
  · cases hrest
  · next old hnode =>
    split_ifs at hrest
    exact ⟨not_directory_of_file hnode, (Except.ok.inj hrest).symm⟩
  · next hnode =>
    obtain ⟨-, -, hput⟩ := bind_eq_ok_iff.1 hrest
    split_ifs at hput
    exact ⟨not_directory_of_none hnode, (Except.ok.inj hput).symm⟩

lemma removeFile_eq_ok (h : t.removeFile here p = .ok t') :
    ∃ r b, t.locate here p = .ok ⟨r, b⟩ ∧ t.node? r ≠ some .directory ∧ t' = t.remove r := by
  obtain ⟨⟨r, n⟩, hfind, hrest⟩ := bind_eq_ok_iff.1 h
  obtain ⟨⟨b, hlocate⟩, hnode⟩ := find_eq_ok hfind
  cases n with
  | directory => cases hrest
  | file content =>
    exact ⟨r, b, hlocate, not_directory_of_file hnode, (Except.ok.inj hrest).symm⟩

lemma replaceFile_eq_ok (h : t.replaceFile here p q = .ok t') :
    ∃ r b target content, t.locate here p = .ok ⟨r, b⟩ ∧ t.node? r = some (.file content) ∧
      t.locate here q = .ok target ∧ t.node? target.route ≠ some .directory ∧
      t' = (t.remove r).put target.route (.file content) := by
  obtain ⟨⟨r, n⟩, hfind, hrest⟩ := bind_eq_ok_iff.1 h
  obtain ⟨⟨b, hlocate⟩, hnode⟩ := find_eq_ok hfind
  cases n with
  | directory => cases hrest
  | file content =>
    obtain ⟨target, htarget, hput⟩ := bind_eq_ok_iff.1 hrest
    refine ⟨r, b, target, content, hlocate, hnode, htarget, ?_⟩
    split at hput
    · cases hput
    · next hdir =>
      obtain ⟨-, -, hput⟩ := bind_eq_ok_iff.1 hput
      split_ifs at hput
      exact ⟨hdir, (Except.ok.inj hput).symm⟩

lemma makeDirectory_eq_ok (h : t.makeDirectory here p = .ok t') :
    ∃ target, t.locate here p = .ok target ∧ t.node? target.route = none ∧
      t' = t.put target.route .directory := by
  obtain ⟨target, htarget, hrest⟩ := bind_eq_ok_iff.1 h
  refine ⟨target, htarget, ?_⟩
  split at hrest
  · cases hrest
  · next hnode =>
    obtain ⟨-, -, hput⟩ := bind_eq_ok_iff.1 hrest
    exact ⟨hnode, (Except.ok.inj hput).symm⟩

/-! ### Changes that are not refused -/

lemma requireParent_of_directory (h : t.node? r.dropLast = some .directory) :
    t.requireParent r = .ok () := by
  rw [requireParent, h]

lemma write_of_locate (hp : t.locate here p = .ok ⟨r, false⟩)
    (hdir : t.node? r.dropLast = some .directory) (hr : t.node? r ≠ some .directory) :
    t.write here p content = .ok (t.put r (.file content)) := by
  refine bind_eq_ok_iff.2 ⟨⟨r, false⟩, hp, ?_⟩
  cases hnode : t.node? r with
  | none =>
    simp only
    exact bind_eq_ok_iff.2 ⟨(), requireParent_of_directory hdir, rfl⟩
  | some n =>
    cases n with
    | directory => exact absurd hnode hr
    | file old => rfl

lemma find_of_locate_file (hp : t.locate here p = .ok ⟨r, false⟩)
    (hr : t.node? r = some (.file content)) : t.find here p = .ok (r, .file content) := by
  refine bind_eq_ok_iff.2 ⟨⟨r, false⟩, hp, ?_⟩
  simp only [hr]
  rfl

lemma find_of_locate_none (hp : t.locate here p = .ok ⟨r, false⟩) (hr : t.node? r = none) :
    t.find here p = .error .noSuchEntry := by
  rw [find, hp]
  simp only [bind, Except.bind, hr]

lemma find_of_locate_directory {b : Bool} (hp : t.locate here p = .ok ⟨r, b⟩)
    (hr : t.node? r = some .directory) : t.find here p = .ok (r, .directory) := by
  rw [find, hp]
  simp only [bind, Except.bind, hr]

lemma read_of_locate (hp : t.locate here p = .ok ⟨r, false⟩)
    (hr : t.node? r = some (.file content)) : t.read here p = .ok content :=
  bind_eq_ok_iff.2 ⟨_, find_of_locate_file hp hr, rfl⟩

lemma read_of_none (hp : t.locate here p = .ok ⟨r, false⟩) (hr : t.node? r = none) :
    t.read here p = .error .noSuchEntry := by
  rw [read, find_of_locate_none hp hr]
  rfl

lemma removeFile_of_locate (hp : t.locate here p = .ok ⟨r, false⟩)
    (hr : t.node? r = some (.file content)) : t.removeFile here p = .ok (t.remove r) :=
  bind_eq_ok_iff.2 ⟨_, find_of_locate_file hp hr, rfl⟩

lemma removeFile_of_none (hp : t.locate here p = .ok ⟨r, false⟩) (hr : t.node? r = none) :
    t.removeFile here p = .error .noSuchEntry := by
  rw [removeFile, find_of_locate_none hp hr]
  rfl

lemma replaceFile_of_locate (hp : t.locate here p = .ok ⟨r, false⟩)
    (hr : t.node? r = some (.file content)) (hq : t.locate here q = .ok ⟨r', false⟩)
    (hdir : t.node? r'.dropLast = some .directory) (hr' : t.node? r' ≠ some .directory) :
    t.replaceFile here p q = .ok ((t.remove r).put r' (.file content)) := by
  refine bind_eq_ok_iff.2 ⟨_, find_of_locate_file hp hr, ?_⟩
  refine bind_eq_ok_iff.2 ⟨⟨r', false⟩, hq, ?_⟩
  have hparent : (t.requireParent r' >>= fun _ =>
      (.ok ((t.remove r).put r' (.file content)) : Except SystemFault FileTree)) =
      .ok ((t.remove r).put r' (.file content)) :=
    bind_eq_ok_iff.2 ⟨(), requireParent_of_directory hdir, rfl⟩
  dsimp only
  split
  · next hnode => exact absurd hnode hr'
  · exact hparent

end PackageStaging.FileTree
