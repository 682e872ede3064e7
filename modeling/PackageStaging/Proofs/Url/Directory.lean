/-
# Addresses of directories

The address of a directory differs from the one that it was made of in nothing but a `/` at the end
of its path (`IsFinal.isDirectoryOf`), is in its final form, too, and is its own address of a
directory.  Names lead from it to what is below it (`IsFinal.liesBelow_join`).
-/
import PackageStaging.Proofs.Url.ReadBack
import PackageStaging.Proofs.Url.Relative

namespace PackageStaging.Url

variable {u v : Url} {ss names : List (List Char)}

/-- The address `v` is `u` as that of a directory. -/
structure IsDirectoryOf (v u : Url) : Prop where
  ends : v.path.text.getLast? = some '/'
  /-- At most a `/` is put behind the path. -/
  path : v.path.text =
    if u.path.text.getLast? = some '/' then u.path.text else u.path.text ++ ['/']
  scheme : v.scheme = u.scheme
  authority : v.authority = u.authority
  query : v.query = u.query
  fragment : v.fragment = u.fragment

/-- The address `u` is what the text `way` leads to from the directory `v`. -/
structure LiesBelow (u v : Url) (way : List Char) : Prop where
  scheme : u.scheme = v.scheme
  /-- Credentials, host and port are those of the directory. -/
  authority : u.authority = v.authority
  path : u.path.text = v.path.text ++ way
  query : u.query = none
  fragment : u.fragment = none

/-! ### Making a directory -/

lemma asDirectory_of_ends (hpath : u.path = .segments ss)
    (hends : u.path.text.getLast? = some '/') : u.asDirectory = u := by
  rw [asDirectory, hpath]
  rw [hpath] at hends
  exact if_pos hends

lemma scheme_asDirectory (u : Url) : u.asDirectory.scheme = u.scheme := by
  rw [asDirectory]
  split
  · rfl
  · split_ifs <;> rfl

namespace IsFinal

variable [Domain.Rules]

/-- To a path that does not end with `/` an empty segment is added. -/
lemma asDirectory_of_not_ends (h : u.IsFinal) (hpath : u.path = .segments ss) (hne : ss ≠ [])
    (hss : ∀ s ∈ ss, IsSegment s) (hends : u.path.text.getLast? ≠ some '/') :
    u.asDirectory = { u with path := .segments (ss ++ [[]]) } := by
  have htext : u.path.text ++ ['/'] = segmentsText (ss ++ [[]]) := by
    rw [segmentsText_concat, hpath]
    rfl
  have hread : pathBehindAuthority u.scheme (segmentsText (ss ++ [[]])) = ss ++ [[]] :=
    pathBehindAuthority_segmentsText h.remote (List.append_ne_nil_of_left_ne_nil hne _)
      (isSegment_of_mem_concat hss isSegment_nil)
  rw [asDirectory, hpath]
  dsimp only
  rw [← hpath, if_neg hends, withPath, htext, hread]

/-- The address of a directory is in its final form, and all but the end of its path is as it
was. -/
theorem isDirectoryOf (h : u.IsFinal) :
    u.asDirectory.IsFinal ∧ u.asDirectory.IsDirectoryOf u := by
  obtain ⟨ss, hpath, hne, hss⟩ := h.path
  by_cases hends : u.path.text.getLast? = some '/'
  · rw [asDirectory_of_ends hpath hends]
    exact ⟨h, hends, (if_pos hends).symm, rfl, rfl, rfl, rfl⟩
  · rw [h.asDirectory_of_not_ends hpath hne hss hends]
    have htext : segmentsText (ss ++ [[]]) = u.path.text ++ ['/'] := by
      rw [segmentsText_concat, hpath]
      rfl
    refine ⟨{ h with path := ⟨_, rfl, ?_, isSegment_of_mem_concat hss isSegment_nil⟩ }, ?_⟩
    · exact List.append_ne_nil_of_left_ne_nil hne _
    · exact {
        ends := by
          show (segmentsText (ss ++ [[]])).getLast? = _
          rw [htext, List.getLast?_concat]
        path := by
          rw [if_neg hends, ← htext]
          rfl
        scheme := rfl
        authority := rfl
        query := rfl
        fragment := rfl }

/-! ### Below a directory -/

/-- Names lead from a directory to what is below it, by whatever rules domains are read. -/
theorem liesBelow_join (h : v.IsFinal) (hends : v.path.text.getLast? = some '/') (hne : names ≠ [])
    (hnames : ∀ s ∈ names, IsName s) :
    ∃ u, (∀ [Domain.Rules], v.join (String.ofList (Text.joined '/' names)) = .ok u) ∧
      u.LiesBelow v (Text.joined '/' names) := by
  obtain ⟨ss, hpath, -, hss⟩ := h.path
  obtain ⟨front, hjoin, hfront⟩ := join_joined hpath hne hnames
  rw [hpath] at hends
  obtain ⟨directory, rfl⟩ := exists_of_ends hss hends
  rw [hfront h.remote, List.dropLast_concat] at hjoin
  refine ⟨_, @hjoin, rfl, rfl, ?_, rfl, rfl⟩
  -- the empty segment of the directory makes room for the first name
  show segmentsText (directory ++ names) = v.path.text ++ Text.joined '/' names
  have happend : segmentsText (directory ++ names) = segmentsText directory ++ segmentsText names :=
    List.flatMap_append
  rw [hpath, happend, segmentsText_eq hne]
  show _ = segmentsText (directory ++ [[]]) ++ _
  rw [segmentsText_concat, List.append_assoc, List.singleton_append]

end IsFinal

end PackageStaging.Url
