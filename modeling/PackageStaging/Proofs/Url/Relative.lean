/-
# Addresses below a directory

Names with `/` between them spell an address relative to any other one that can be a base: their
segments follow those in front of the base's last one, and the base's query and fragment are gone
(`join_joined`).  No host is read on the way, so the rules for domains do not matter.
-/
import Mathlib.Data.List.TakeWhile
import PackageStaging.Proofs.Url.Path
import PackageStaging.Url.Relative

namespace PackageStaging.Url

variable {u : Url} {text : List Char} {ss names : List (List Char)} {c : Char}

/-! ### Names -/

/-- Names of entries: segments that can stand at the front of a relative address, because they are
neither a scheme nor a drive nor empty. -/
structure IsName (s : List Char) : Prop extends IsSegment s where
  ne_nil : s ≠ []
  noColon : ':' ∉ s
  notDrive : isDrive s = false

instance : DecidablePred IsName := fun s =>
  decidable_of_iff (IsSegment s ∧ s ≠ [] ∧ ':' ∉ s ∧ isDrive s = false)
    ⟨fun h => ⟨h.1, h.2.1, h.2.2.1, h.2.2.2⟩,
      fun h => ⟨h.toIsSegment, h.ne_nil, h.noColon, h.notDrive⟩⟩

/-- What is written for names shows, does not end a path, and holds no colon. -/
lemma of_mem_joined (h : ∀ s ∈ names, IsName s) (hc : c ∈ Text.joined '/' names) :
    IsVisible c ∧ endsPath c = false ∧ c ≠ ':' := by
  rcases Text.mem_joined hc with rfl | ⟨s, hs, hc⟩
  · decide
  · have hpath := (h s hs).keeps c hc
    exact ⟨isVisible_of_inPath hpath, endsPath_of_inPath hpath,
      fun heq => (h s hs).noColon (heq ▸ hc)⟩

/-- A text without a colon has no scheme. -/
lemma cutScheme_eq_none (h : ':' ∉ text) : cutScheme text = none := by
  rw [cutScheme.eq_def]
  split
  · rfl
  · next c rest =>
    split_ifs
    · rfl
    · split
      · next rest' heq =>
        have hmem : ':' ∈ (c :: rest).dropWhile inScheme := heq ▸ .head _
        exact absurd ((List.dropWhile_sublist _).subset hmem) h
      · rfl

/-- What is written for names begins with a name, so with no separator. -/
lemma exists_joined_eq (hne : names ≠ []) (h : ∀ s ∈ names, IsName s) :
    ∃ c rest, Text.joined '/' names = c :: rest ∧ isSeparator true c = false := by
  obtain ⟨s, names, rfl⟩ := List.exists_cons_of_ne_nil hne
  have hs := h s (.head _)
  obtain ⟨c, cs, rfl⟩ := List.exists_cons_of_ne_nil hs.ne_nil
  refine ⟨c, cs ++ (Text.joined '/' ((c :: cs) :: names)).drop (c :: cs).length, ?_,
    hs.whole c (.head _)⟩
  cases names with
  | nil => simp [Text.joined]
  | cons t ts => simp [Text.joined]

lemma beginsWithDrive_joined (hne : names ≠ []) (h : ∀ s ∈ names, IsName s) :
    beginsWithDrive (Text.joined '/' names) = false := by
  obtain ⟨s, names, rfl⟩ := List.exists_cons_of_ne_nil hne
  have hs := h s (.head _)
  have hwhole : ∀ c ∈ s, (!endsAuthority true c) = true := by
    intro c hc
    have hends := endsPath_of_inPath (hs.keeps c hc)
    have hseparator := hs.whole c hc
    simp only [isSeparator, Bool.or_eq_false_iff] at hseparator
    simp [endsAuthority, hends, hseparator.1, hseparator.2]
  have hfirst : (Text.joined '/' (s :: names)).takeWhile (fun c => !endsAuthority true c) = s := by
    cases names with
    | nil => exact List.takeWhile_eq_self_iff.2 hwhole
    | cons t ts =>
      rw [Text.joined, List.takeWhile_append_of_pos hwhole]
      · simp [endsAuthority]
      · simp
  rw [beginsWithDrive, hfirst, hs.notDrive]

/-! ### Paths -/

/-- Only empty segments are dropped. -/
lemma exists_withoutEmptyFront (front : List (List Char)) (h : ∀ s ∈ names, s ≠ []) :
    ∃ front', withoutEmptyFront (front ++ names) = front' ++ names := by
  induction front with
  | nil =>
    refine ⟨[], ?_⟩
    cases names with
    | nil => rfl
    | cons s names =>
      obtain ⟨c, cs, rfl⟩ := List.exists_cons_of_ne_nil (h s (.head _))
      rfl
  | cons s front ih =>
    obtain ⟨front', hfront⟩ := ih
    rw [List.cons_append, withoutEmptyFront.eq_def]
    split
    · next t ts heq =>
      obtain ⟨rfl, hrest⟩ := List.cons.inj heq
      exact ⟨front', hrest ▸ hfront⟩
    · exact ⟨s :: front, rfl⟩

lemma shortened_false (ss : List (List Char)) : shortened false ss = ss.dropLast := by
  rw [shortened.eq_def]
  split <;> rfl

/-- The path that names spell, seen from one of these segments. -/
lemma exists_pathSegments (scheme : List Char) (ss : List (List Char)) (hne : names ≠ [])
    (h : ∀ s ∈ names, IsName s) :
    ∃ front, pathSegments scheme (segmentsBefore scheme ss (Text.joined '/' names))
        (Text.joined '/' names) = front ++ names ∧
      (isFile scheme = false → front = ss.dropLast) := by
  have hcut : cutSegments (isSpecial scheme) (Text.joined '/' names) = names :=
    cutSegments_joined hne fun s hs c hc => isSeparator_of_special ((h s hs).whole c hc)
  have hresolved : ∀ acc, resolved (isFile scheme) acc names = acc ++ names := fun acc =>
    resolved_final (fun s hs => (h s hs).toIsSegment) fun s hs => by
      rw [(h s hs).notDrive, Bool.and_false]
  have hbefore : segmentsBefore scheme ss (Text.joined '/' names) =
      shortened (isFile scheme) ss := by
    rw [segmentsBefore, beginsWithDrive_joined hne h, Bool.and_false]
    rfl
  simp only [pathSegments, hbefore, hcut, hresolved]
  cases hfile : isFile scheme with
  | true =>
    obtain ⟨front, hfront⟩ :=
      exists_withoutEmptyFront (shortened true ss) fun s hs => (h s hs).ne_nil
    exact ⟨front, hfront, fun hnot => Bool.noConfusion hnot⟩
  | false => exact ⟨ss.dropLast, by rw [shortened_false]; rfl, fun _ => rfl⟩

/-! ### Whole addresses -/

/-- The address that names spell, seen from another one, by whatever rules domains are read. -/
theorem join_joined (hpath : u.path = .segments ss) (hne : names ≠ [])
    (h : ∀ s ∈ names, IsName s) :
    ∃ front, (∀ [Domain.Rules], u.join (String.ofList (Text.joined '/' names)) =
        .ok { u with path := .segments (front ++ names), query := none, fragment := none }) ∧
      (isFile u.scheme = false → front = ss.dropLast) := by
  obtain ⟨front, hfront, hdirectory⟩ := exists_pathSegments u.scheme ss hne h
  refine ⟨front, fun {_} => ?_, hdirectory⟩
  have hvisible : ∀ c ∈ Text.joined '/' names, IsVisible c := fun c hc => (of_mem_joined h hc).1
  have hkeeps : ∀ c ∈ Text.joined '/' names, (!endsPath c) = true := fun c hc => by
    rw [(of_mem_joined h hc).2.1]
    rfl
  have hscheme : cutScheme (Text.joined '/' names) = none :=
    cutScheme_eq_none fun hc => (of_mem_joined h hc).2.2 rfl
  have htake := List.takeWhile_eq_self_iff.2 hkeeps
  have hdrop := List.dropWhile_eq_nil_iff.2 hkeeps
  obtain ⟨c, rest, hjoined, hc⟩ := exists_joined_eq hne h
  have hseparator : isSeparator (isSpecial u.scheme) c = false := isSeparator_of_special hc
  have hauthority : beginsWithAuthority (isSpecial u.scheme) (Text.joined '/' names) = false := by
    rw [hjoined, beginsWithAuthority.eq_def]
    cases rest with
    | nil => rfl
    | cons d rest => simp [hseparator]
  rw [join, String.toList_ofList, cleaned_eq_self hvisible, hscheme, hpath]
  show readRelative u ss (Text.joined '/' names) = _
  rw [readRelative, hauthority, hdrop]
  simp only [Bool.false_eq_true, if_false, cutSuffix, htake]
  rw [hjoined] at hfront ⊢
  simp only [hseparator, Bool.false_eq_true, if_false, hfront]

end PackageStaging.Url
