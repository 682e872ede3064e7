/-
# Addresses are read back

An address of a special scheme that was read is in its final form (`IsFinal.of_parse`), local files
apart, and one in its final form is read from its text as it is (`IsFinal.parse_text`): every part
is cut off where the next one begins, and encoding does nothing to it a second time.
-/
import PackageStaging.Proofs.Url.Authority
import PackageStaging.Proofs.Url.Path

namespace PackageStaging.Url

variable {u : Url} {scheme s : List Char} {ss : List (List Char)} {c : Char}
  {query fragment : Option (List Char)}

/-! ### Schemes -/

/-- The special schemes are written in small letters. -/
lemma isVisible_of_mem_scheme (hspecial : isSpecial scheme = true) (hc : c ∈ scheme) :
    IsVisible c := by
  have hall : (specialPorts.all fun e => e.1.all fun c => decide (IsVisible c)) = true := by decide
  obtain ⟨e, he, heq⟩ := List.any_eq_true.1 hspecial
  have hscheme := List.all_eq_true.1 (List.all_eq_true.1 hall e he)
  exact of_decide_eq_true (hscheme c (of_decide_eq_true heq ▸ hc))

lemma cutScheme_special (hspecial : isSpecial scheme = true) (rest : List Char) :
    cutScheme (scheme ++ ':' :: rest) = some (scheme, rest) := by
  obtain ⟨e, he, heq⟩ := List.any_eq_true.1 hspecial
  rw [← of_decide_eq_true heq]
  simp only [specialPorts, List.mem_cons, List.not_mem_nil, or_false] at he
  rcases he with rfl | rfl | rfl | rfl | rfl | rfl
  all_goals rfl

/-! ### Queries and fragments -/

lemma cutSuffix_final (hspecial : isSpecial scheme = true) (s : List Char) :
    (∀ q, (cutSuffix scheme s).1 = some q → ∀ c ∈ q, inSpecialQuery c = true) ∧
      ∀ f, (cutSuffix scheme s).2 = some f → ∀ c ∈ f, inFragment c = true := by
  have hquery : ∀ t, ∀ c ∈ encoded inSpecialQuery t, inSpecialQuery c = true := fun t c hc =>
    keeps_of_mem_encoded (by decide) (by decide) hc
  have hfragment : ∀ t, ∀ c ∈ encoded inFragment t, inFragment c = true := fun t c hc =>
    keeps_of_mem_encoded (by decide) (by decide) hc
  rw [cutSuffix.eq_def]
  simp only [hspecial, if_true]
  split
  · split
    · exact ⟨fun q hq => Option.some.inj hq ▸ hquery _,
        fun f hf => Option.some.inj hf ▸ hfragment _⟩
    · exact ⟨fun q hq => Option.some.inj hq ▸ hquery _, fun f hf => nomatch hf⟩
  · exact ⟨fun q hq => (nomatch hq), fun f hf => Option.some.inj hf ▸ hfragment _⟩
  · exact ⟨fun q hq => (nomatch hq), fun f hf => nomatch hf⟩

/-- A query and a fragment are found again behind their marks. -/
lemma cutSuffix_marked (hspecial : isSpecial scheme = true)
    (hquery : ∀ q, query = some q → ∀ c ∈ q, inSpecialQuery c = true)
    (hfragment : ∀ f, fragment = some f → ∀ c ∈ f, inFragment c = true) :
    cutSuffix scheme (marked '?' query ++ marked '#' fragment) = (query, fragment) := by
  cases query with
  | none =>
    cases fragment with
    | none => rfl
    | some f => simp [marked, cutSuffix, encoded_eq_self (hfragment f rfl)]
  | some q =>
    have hself := encoded_eq_self (hquery q rfl)
    have hmark : ∀ c ∈ q, decide (c ≠ '#') = true := by
      intro c hc
      have hkeeps := hquery q rfl c hc
      simp only [inSpecialQuery, inQuery, Bool.and_eq_true] at hkeeps
      exact hkeeps.1.1.1.2
    rw [cutSuffix.eq_def]
    simp only [marked, List.cons_append, hspecial, if_true, List.takeWhile_append_of_pos hmark,
      List.dropWhile_append_of_pos hmark]
    cases fragment with
    | none => simp [hself]
    | some f => simp [hself, encoded_eq_self (hfragment f rfl)]

/-- A query and a fragment begin with what ends a path. -/
lemma span_marked (query fragment : Option (List Char)) :
    (marked '?' query ++ marked '#' fragment).takeWhile (fun c => !endsPath c) = [] ∧
      (marked '?' query ++ marked '#' fragment).dropWhile (fun c => !endsPath c) =
        marked '?' query ++ marked '#' fragment := by
  cases query with
  | some q => exact ⟨rfl, rfl⟩
  | none =>
    cases fragment with
    | some f => exact ⟨rfl, rfl⟩
    | none => exact ⟨rfl, rfl⟩

/-! ### Parts that show -/

lemma isVisible_of_mem_segmentsText (h : ∀ s ∈ ss, IsSegment s) (hc : c ∈ segmentsText ss) :
    IsVisible c ∧ endsPath c = false := by
  obtain ⟨s, hs, hc⟩ := List.mem_flatMap.1 hc
  rcases List.mem_cons.1 hc with rfl | hc
  · decide
  · have hkeeps := (h s hs).keeps c hc
    exact ⟨isVisible_of_inPath hkeeps, endsPath_of_inPath hkeeps⟩

lemma isVisible_of_mem_marked {mark : Char} {part : Option (List Char)} (hmark : IsVisible mark)
    (h : ∀ t, part = some t → ∀ c ∈ t, IsVisible c) (hc : c ∈ marked mark part) : IsVisible c := by
  cases part with
  | none => exact absurd hc List.not_mem_nil
  | some t =>
    rcases List.mem_cons.1 hc with rfl | hc
    · exact hmark
    · exact h t rfl c hc

/-! ### Final forms -/

variable [Domain.Rules]

/-- Addresses of a special scheme in their final form, local files apart. -/
structure IsFinal (u : Url) : Prop where
  special : isSpecial u.scheme = true
  remote : isFile u.scheme = false
  authority : ∃ a, u.authority = some a ∧ a.IsFinal u.scheme
  path : ∃ ss, u.path = .segments ss ∧ ss ≠ [] ∧ ∀ s ∈ ss, IsSegment s
  query : ∀ q, u.query = some q → ∀ c ∈ q, inSpecialQuery c = true
  fragment : ∀ f, u.fragment = some f → ∀ c ∈ f, inFragment c = true

lemma scheme_of_readHierarchical (h : readHierarchical scheme s = .ok u) : u.scheme = scheme := by
  obtain ⟨⟨authority, left⟩, -, h⟩ := bind_eq_ok_iff.1 h
  rw [← Except.ok.inj h]

lemma scheme_of_readFile (h : readFile scheme s = .ok u) : u.scheme = scheme := by
  rw [readFile.eq_def] at h
  split at h
  · dsimp only at h
    split_ifs at h
    · rw [← Except.ok.inj h]
      rfl
    · obtain ⟨host, -, h⟩ := bind_eq_ok_iff.1 h
      rw [← Except.ok.inj h]
      rfl
    · rw [← Except.ok.inj h]
      rfl
  · rw [← Except.ok.inj h]
    rfl

lemma scheme_of_readOther (h : readOther scheme s = .ok u) : u.scheme = scheme := by
  rw [readOther.eq_def] at h
  split at h
  · exact scheme_of_readHierarchical h
  · rw [← Except.ok.inj h]

lemma isFinal_of_readHierarchical [Domain.LawfulRules] (hspecial : isSpecial scheme = true)
    (hremote : isFile scheme = false) (h : readHierarchical scheme s = .ok u) : u.IsFinal := by
  obtain ⟨⟨a, left⟩, ha, h⟩ := bind_eq_ok_iff.1 h
  obtain rfl := Except.ok.inj h
  have hbackslash : '\\' ∉ s.takeWhile fun c => !endsAuthority (isSpecial scheme) c := by
    intro hmem
    have hnot := List.mem_takeWhile_imp hmem
    rw [hspecial] at hnot
    exact absurd hnot (by decide)
  obtain ⟨hfinal, -⟩ := isFinal_of_readAuthority hspecial hbackslash ha
  exact {
    special := hspecial
    remote := hremote
    authority := ⟨a, rfl, hfinal⟩
    path := ⟨_, rfl, isSegment_pathBehindAuthority hspecial hremote _⟩
    query := (cutSuffix_final hspecial _).1
    fragment := (cutSuffix_final hspecial _).2 }

/-- What is read is in its final form, if the scheme is special and not that of local files. -/
theorem IsFinal.of_parse [Domain.LawfulRules] {given : String} (h : parse given = .ok u)
    (hspecial : isSpecial u.scheme = true) (hremote : isFile u.scheme = false) : u.IsFinal := by
  rw [parse] at h
  split at h
  · exact nomatch h
  · next scheme rest hcut =>
    rw [readBehindScheme] at h
    split_ifs at h with hfile hknown
    · rw [scheme_of_readFile h, hfile] at hremote
      exact nomatch hremote
    · exact isFinal_of_readHierarchical hknown (Bool.eq_false_iff.2 hfile) h
    · rw [scheme_of_readOther h] at hspecial
      exact absurd hspecial hknown

namespace IsFinal

/-- The text of the address, part by part. -/
lemma exists_chars_eq (h : u.IsFinal) :
    ∃ a ss, u.authority = some a ∧ a.IsFinal u.scheme ∧
      u.path = .segments ss ∧ ss ≠ [] ∧ (∀ s ∈ ss, IsSegment s) ∧
      u.chars = u.scheme ++ ':' :: '/' :: '/' ::
        (a.text ++ (segmentsText ss ++ (marked '?' u.query ++ marked '#' u.fragment))) := by
  obtain ⟨a, ha, hfinal⟩ := h.authority
  obtain ⟨ss, hss, hne, hsegments⟩ := h.path
  refine ⟨a, ss, ha, hfinal, hss, hne, hsegments, ?_⟩
  rw [chars, introduction, ha, hss]
  simp [Path.text]

/-- The text of the address consists of characters of ASCII that show. -/
lemma isVisible (h : u.IsFinal) (hc : c ∈ u.chars) : IsVisible c := by
  obtain ⟨a, ss, -, ha, -, -, hss, hchars⟩ := h.exists_chars_eq
  simp only [hchars, List.mem_append, List.mem_cons] at hc
  rcases hc with hc | rfl | rfl | rfl | hc | hc | hc | hc
  · exact isVisible_of_mem_scheme h.special hc
  · decide
  · decide
  · decide
  · exact (ha.inAuthority hc).1
  · exact (isVisible_of_mem_segmentsText hss hc).1
  · exact isVisible_of_mem_marked (by decide)
      (fun q hq c hc => isVisible_of_inSpecialQuery (h.query q hq c hc)) hc
  · exact isVisible_of_mem_marked (by decide)
      (fun f hf c hc => isVisible_of_inFragment (h.fragment f hf c hc)) hc

/-- The parts of the address are found in the text behind the two separators. -/
lemma readHierarchical_parts [Domain.LawfulRules] (h : u.IsFinal) {a : Authority}
    (ha : u.authority = some a) (hfinal : a.IsFinal u.scheme) (hpath : u.path = .segments ss)
    (hne : ss ≠ []) (hss : ∀ s ∈ ss, IsSegment s) :
    readHierarchical u.scheme
      (a.text ++ (segmentsText ss ++ (marked '?' u.query ++ marked '#' u.fragment))) = .ok u := by
  have hslash : segmentsText ss = '/' :: Text.joined '/' ss := segmentsText_eq hne
  obtain ⟨htake, hdrop⟩ := span_marked u.query u.fragment
  set suffix := marked '?' u.query ++ marked '#' u.fragment with hsuffix
  -- the authority ends at the first segment
  have hauthority : ∀ c ∈ a.text, (!endsAuthority (isSpecial u.scheme) c) = true := by
    intro c hc
    rw [h.special, (hfinal.inAuthority hc).2]
    rfl
  have hfront : (a.text ++ (segmentsText ss ++ suffix)).takeWhile
      (fun c => !endsAuthority (isSpecial u.scheme) c) = a.text := by
    rw [List.takeWhile_append_of_pos hauthority, hslash]
    exact List.append_nil _
  have hback : (a.text ++ (segmentsText ss ++ suffix)).dropWhile
      (fun c => !endsAuthority (isSpecial u.scheme) c) = segmentsText ss ++ suffix := by
    rw [List.dropWhile_append_of_pos hauthority, hslash]
    rfl
  -- the path ends at the mark of the query or the fragment
  have hkeeps : ∀ c ∈ segmentsText ss, (!endsPath c) = true := by
    intro c hc
    rw [(isVisible_of_mem_segmentsText hss hc).2]
    rfl
  rw [readHierarchical, hfront, hback, readAuthority_text h.special hfinal]
  refine bind_eq_ok_iff.2 ⟨(a, []), rfl, ?_⟩
  dsimp only
  rw [List.nil_append, List.takeWhile_append_of_pos hkeeps, List.dropWhile_append_of_pos hkeeps,
    htake, hdrop, List.append_nil, pathBehindAuthority_segmentsText h.remote hne hss, hsuffix,
    cutSuffix_marked h.special h.query h.fragment, ← hpath, ← ha]
  rfl

/-- An address in its final form is read from its text. -/
theorem parse_text [Domain.LawfulRules] (h : u.IsFinal) : parse u.text = .ok u := by
  obtain ⟨a, ss, ha, hfinal, hpath, hne, hss, hchars⟩ := h.exists_chars_eq
  have hread := h.readHierarchical_parts ha hfinal hpath hne hss
  -- the two separators are dropped, and the authority begins with none
  obtain ⟨c, cs, hcs⟩ := List.exists_cons_of_ne_nil hfinal.text_ne_nil
  have hends := (hfinal.inAuthority (c := c) (hcs ▸ .head _)).2
  have hc : isSeparator true c = false := by
    simp only [endsAuthority, endsPath, Bool.or_eq_false_iff] at hends
    simp [isSeparator, hends.1.1, hends.2]
  have hdrop : ∀ rest, ('/' :: '/' :: (a.text ++ rest)).dropWhile (isSeparator true) =
      a.text ++ rest := by
    intro rest
    rw [hcs]
    simp [List.dropWhile_cons, hc]
  rw [parse, text, String.toList_ofList, cleaned_eq_self fun c hc => h.isVisible hc, hchars,
    cutScheme_special h.special]
  dsimp only
  rw [readBehindScheme, if_neg (Bool.eq_false_iff.1 h.remote), if_pos h.special, hdrop, hread]

end IsFinal

end PackageStaging.Url
