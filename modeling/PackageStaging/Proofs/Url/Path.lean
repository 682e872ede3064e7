/-
# Paths are read back

A segment in its final form (`IsSegment`) stands for itself: cutting a path at its separators and
resolving `.` and `..` gives such segments, and does nothing to a path that consists of them.  What
encoding adds to a segment holds no encoded dot, so that a segment that was none of those for others
is none of them when it is encoded (`isSegment_encoded`).
-/
import Mathlib.Tactic.Lemma
import PackageStaging.Proofs.Url.Characters

namespace PackageStaging.Url

variable {scheme s text rest : List Char} {ss acc : List (List Char)} {c : Char}
  {special file : Bool}

/-! ### Cutting -/

@[simp] lemma isSeparator_slash (special : Bool) : isSeparator special '/' = true := rfl

lemma isSeparator_of_special (h : isSeparator true c = false) : isSeparator special c = false := by
  simp only [isSeparator, Bool.true_and, Bool.or_eq_false_iff] at h
  simp [isSeparator, h.1, h.2]

lemma cutSegments_ne_nil (special : Bool) (text : List Char) : cutSegments special text ≠ [] := by
  cases text with
  | nil => exact List.cons_ne_nil _ _
  | cons c rest =>
    rw [cutSegments]
    split
    · exact List.cons_ne_nil _ _
    · split <;> exact List.cons_ne_nil _ _

/-- No segment holds a separator. -/
lemma not_isSeparator_of_mem_cutSegments (hs : s ∈ cutSegments special text) (hc : c ∈ s) :
    isSeparator special c = false := by
  induction text generalizing s with
  | nil =>
    rw [List.mem_singleton.1 hs] at hc
    exact absurd hc List.not_mem_nil
  | cons d rest ih =>
    rw [cutSegments] at hs
    split at hs
    · rcases List.mem_cons.1 hs with rfl | hs
      · exact absurd hc List.not_mem_nil
      · exact ih hs hc
    · next hd =>
      split at hs
      · rw [List.mem_singleton.1 hs, List.mem_singleton] at hc
        rw [hc]
        exact Bool.eq_false_iff.2 hd
      · next t ts hcut =>
        rw [hcut] at ih
        rcases List.mem_cons.1 hs with rfl | hs
        · rcases List.mem_cons.1 hc with rfl | hc
          · exact Bool.eq_false_iff.2 hd
          · exact ih (.head _) hc
        · exact ih (.tail _ hs) hc

/-- A text without a separator is one segment. -/
lemma cutSegments_eq_singleton (h : ∀ c ∈ s, isSeparator special c = false) :
    cutSegments special s = [s] := by
  induction s with
  | nil => rfl
  | cons c s ih =>
    have hrest := ih fun d hd => h d (.tail _ hd)
    rw [cutSegments, if_neg (Bool.eq_false_iff.1 (h c (.head _))), hrest]

/-- A segment is cut off at the separator behind it. -/
lemma cutSegments_append (h : ∀ c ∈ s, isSeparator special c = false) (rest : List Char) :
    cutSegments special (s ++ '/' :: rest) = s :: cutSegments special rest := by
  induction s with
  | nil =>
    rw [List.nil_append, cutSegments, if_pos (isSeparator_slash special)]
  | cons c s ih =>
    have hrest := ih fun d hd => h d (.tail _ hd)
    rw [List.cons_append, cutSegments, if_neg (Bool.eq_false_iff.1 (h c (.head _))), hrest]

lemma cutSegments_joined (hne : ss ≠ [])
    (h : ∀ s ∈ ss, ∀ c ∈ s, isSeparator special c = false) :
    cutSegments special (Text.joined '/' ss) = ss := by
  induction ss with
  | nil => exact absurd rfl hne
  | cons s ss ih =>
    have hs := h s (.head _)
    cases ss with
    | nil => exact cutSegments_eq_singleton hs
    | cons t ts =>
      have hrest := ih (List.cons_ne_nil _ _) fun q hq => h q (.tail _ hq)
      rw [Text.joined, cutSegments_append hs, hrest]
      exact fun hnil => List.cons_ne_nil _ _ hnil

lemma segmentsText_eq (hne : ss ≠ []) : segmentsText ss = '/' :: Text.joined '/' ss := by
  induction ss with
  | nil => exact absurd rfl hne
  | cons s ss ih =>
    cases ss with
    | nil => simp [segmentsText, Text.joined]
    | cons t ts =>
      have hrest := ih (List.cons_ne_nil _ _)
      simp only [segmentsText, List.flatMap_cons, Text.joined] at hrest ⊢
      rw [hrest, List.cons_append]

/-! ### Dots -/

/-- The byte of a dot is in the encoded form of no character, because the dot stands for itself. -/
lemma dot_not_mem_utf8 (h : inPath c = false) : (0x2E : UInt8) ∉ String.utf8EncodeChar c := by
  rcases Nat.lt_or_ge c.toNat 0x80 with hc | hc
  · exact Utf8.forall_ascii
      (P := fun c => inPath c = false → (0x2E : UInt8) ∉ String.utf8EncodeChar c)
      (by decide +kernel) hc h
  · exact fun hmem => absurd (Utf8.le_of_mem_encodeChar hc hmem) (by decide)

/-- A character that is encoded begins with `%`, and does not spell a dot. -/
lemma exists_encodedChar (h : inPath c = false) :
    ∃ x y more, encodedChar inPath c = '%' :: x :: y :: more ∧
      ¬ (x = '2' ∧ (y = 'e' ∨ y = 'E')) := by
  have hbyte : ∀ n < 256, capitalDigit (n / 16) = '2' →
      capitalDigit (n % 16) = 'e' ∨ capitalDigit (n % 16) = 'E' → n = 0x2E := by
    decide +kernel
  cases hbytes : String.utf8EncodeChar c with
  | nil => exact absurd hbytes (String.utf8EncodeChar_ne_nil)
  | cons b bytes =>
    refine ⟨capitalDigit (b.toNat / 16), capitalDigit (b.toNat % 16), bytes.flatMap encodedByte,
      ?_, ?_⟩
    · rw [encodedChar, if_neg (Bool.eq_false_iff.1 h), hbytes, List.flatMap_cons]
      rfl
    · rintro ⟨hx, hy⟩
      have hdot : b = 0x2E := UInt8.toNat_inj.1 (hbyte b.toNat b.toNat_lt hx hy)
      exact dot_not_mem_utf8 h (hbytes ▸ hdot ▸ .head _)

lemma encoded_cons (c : Char) (s : List Char) :
    encoded inPath (c :: s) = encodedChar inPath c ++ encoded inPath s := List.flatMap_cons

/-- A character that is not encoded stands for itself. -/
lemma of_encoded_eq_cons (h : encoded inPath s = c :: rest) (hc : c ≠ '%') :
    ∃ t, s = c :: t ∧ encoded inPath t = rest := by
  cases s with
  | nil => exact nomatch h
  | cons d t =>
    rw [encoded_cons] at h
    cases hd : inPath d with
    | true =>
      rw [encodedChar, if_pos hd] at h
      obtain ⟨rfl, hrest⟩ := List.cons.inj h
      exact ⟨t, rfl, hrest⟩
    | false =>
      obtain ⟨x, y, more, hform, -⟩ := exists_encodedChar hd
      rw [hform] at h
      exact absurd (List.cons.inj h).1.symm hc

/-- If an encoded segment spells nothing but dots, nothing was encoded in it. -/
lemma encoded_of_dots (h : ∀ c ∈ plainDots (encoded inPath s), c = '.') :
    encoded inPath s = s := by
  induction hlength : s.length using Nat.strongRecOn generalizing s with
  | _ n ih =>
    cases s with
    | nil => rfl
    | cons c s =>
      rw [List.length_cons] at hlength
      rw [encoded_cons] at h ⊢
      -- a dot that was given encoded stands there as it was given
      have hgiven : ∀ e rest, e ≠ '%' → encoded inPath s = '2' :: e :: rest →
          (∀ c ∈ plainDots rest, c = '.') → encoded inPath s = s := by
        intro e rest he heq hrest
        obtain ⟨t, rfl, ht⟩ := of_encoded_eq_cons heq (by decide)
        obtain ⟨t, rfl, rfl⟩ := of_encoded_eq_cons ht he
        rw [List.length_cons, List.length_cons] at hlength
        rw [heq, ih t.length (by omega) hrest rfl]
      cases hc : inPath c with
      | true =>
        have hself : encodedChar inPath c = [c] := if_pos hc
        rw [hself, List.singleton_append] at h ⊢
        congr 1
        rw [plainDots.eq_def] at h
        split at h
        · next rest heq =>
          exact hgiven 'e' rest (by decide) (List.cons.inj heq).2 fun x hx => h x (.tail _ hx)
        · next rest heq =>
          exact hgiven 'E' rest (by decide) (List.cons.inj heq).2 fun x hx => h x (.tail _ hx)
        · next d rest _ _ heq =>
          obtain ⟨rfl, rfl⟩ := List.cons.inj heq
          exact ih s.length (by omega) (fun x hx => h x (.tail _ hx)) rfl
        · next heq => exact nomatch heq
      | false =>
        -- the segment would spell a percent sign
        obtain ⟨x, y, more, hform, hnot⟩ := exists_encodedChar hc
        rw [hform, List.cons_append, List.cons_append, List.cons_append, plainDots.eq_3] at h
        · exact absurd (h '%' (.head _)) (by decide)
        · intro rest _ heq
          simp only [List.cons.injEq] at heq
          exact hnot ⟨heq.1, .inl heq.2.1⟩
        · intro rest _ heq
          simp only [List.cons.injEq] at heq
          exact hnot ⟨heq.1, .inr heq.2.1⟩

/-- Encoding does not make a segment of dots. -/
lemma plainDots_encoded_ne {dots : List Char} (hdots : ∀ c ∈ dots, c = '.')
    (h : plainDots s ≠ dots) : plainDots (encoded inPath s) ≠ dots := by
  intro heq
  have hself : encoded inPath s = s := encoded_of_dots fun c hc => hdots c (heq ▸ hc)
  exact h (hself ▸ heq)

/-! ### Segments in their final form -/

/-- Segments in their final form: they hold what may stand in a path, no separators, and stand for
no other segment. -/
structure IsSegment (s : List Char) : Prop where
  keeps : ∀ c ∈ s, inPath c = true
  whole : ∀ c ∈ s, isSeparator true c = false
  notHere : isHere s = false
  notAbove : isAbove s = false

instance : DecidablePred IsSegment := fun s =>
  decidable_of_iff (s.all inPath = true ∧ (s.all fun c => !isSeparator true c) = true ∧
      isHere s = false ∧ isAbove s = false)
    ⟨fun h => ⟨List.all_eq_true.1 h.1, by simpa using h.2.1, h.2.2.1, h.2.2.2⟩,
      fun h => ⟨List.all_eq_true.2 h.keeps, by simpa using h.whole, h.notHere, h.notAbove⟩⟩

/-- The segment behind a `/` at the end. -/
lemma isSegment_nil : IsSegment [] where
  keeps _ hc := absurd hc List.not_mem_nil
  whole _ hc := absurd hc List.not_mem_nil
  notHere := rfl
  notAbove := rfl

lemma inPath_of_mem_encoded (hc : c ∈ encoded inPath s) : inPath c = true :=
  keeps_of_mem_encoded (by decide) (by decide) hc

/-- A segment that is encoded is one in its final form, if it stood for no other one before. -/
lemma isSegment_encoded (hwhole : ∀ c ∈ s, isSeparator true c = false)
    (hhere : isHere s = false) (habove : isAbove s = false) : IsSegment (encoded inPath s) where
  keeps c hc := inPath_of_mem_encoded hc
  whole c hc := by
    simp only [encoded, List.mem_flatMap, encodedChar] at hc
    obtain ⟨d, hd, hc⟩ := hc
    split at hc
    · rw [List.mem_singleton.1 hc]
      exact hwhole d hd
    · simp only [List.mem_flatMap] at hc
      obtain ⟨b, -, hb⟩ := hc
      have hdigit : ∀ n < 16, isSeparator true (capitalDigit n) = false := by decide
      rcases mem_encodedByte hb with rfl | ⟨n, hn, rfl⟩
      · decide
      · exact hdigit n hn
  notHere := by
    rw [isHere, decide_eq_false_iff_not] at hhere ⊢
    exact plainDots_encoded_ne (by simp) hhere
  notAbove := by
    rw [isAbove, decide_eq_false_iff_not] at habove ⊢
    exact plainDots_encoded_ne (by simp) habove

/-! ### Resolving -/

/-- Segments in their final form are put behind those that are there.  Among the segments of a local
file there must be none that names a drive. -/
lemma resolved_final (h : ∀ s ∈ ss, IsSegment s) (hdrive : ∀ s ∈ ss, (file && isDrive s) = false) :
    resolved file acc ss = acc ++ ss := by
  induction ss generalizing acc with
  | nil => exact (List.append_nil acc).symm
  | cons s ss ih =>
    have hs := h s (.head _)
    have hextended : extended file acc s = acc ++ [s] := by
      have hno := hdrive s (.head _)
      rw [extended, encoded_eq_self hs.keeps, if_neg]
      simp only [Bool.and_eq_true, Bool.and_eq_false_iff] at hno ⊢
      rintro ⟨⟨hfile, -⟩, hname⟩
      rcases hno with hno | hno
      · exact Bool.eq_false_iff.1 hno hfile
      · exact Bool.eq_false_iff.1 hno hname
    have hrest : resolved file (acc ++ [s]) ss = acc ++ [s] ++ ss :=
      ih (fun t ht => h t (.tail _ ht)) fun t ht => hdrive t (.tail _ ht)
    rw [resolved.eq_def]
    cases ss with
    | nil => simp only [hs.notAbove, hs.notHere, Bool.false_eq_true, if_false, hextended]
    | cons t ts =>
      simp only [hs.notAbove, hs.notHere, Bool.false_eq_true, if_false, hextended, hrest,
        List.append_assoc, List.singleton_append]

lemma isSegment_of_mem_shortened (h : ∀ s ∈ ss, IsSegment s) :
    ∀ s ∈ shortened file ss, IsSegment s := by
  intro s hs
  rw [shortened.eq_def] at hs
  split at hs
  · split_ifs at hs
    · exact h s hs
    · exact absurd hs List.not_mem_nil
  · exact h s ((List.dropLast_sublist _).subset hs)

lemma isSegment_of_mem_concat (h : ∀ s ∈ ss, IsSegment s) (hs : IsSegment s) :
    ∀ t ∈ ss ++ [s], IsSegment t := by
  intro t ht
  rcases List.mem_append.1 ht with ht | ht
  · exact h t ht
  · rwa [List.mem_singleton.1 ht]

/-- Whatever the segments are that are put behind others, those that come out are in their final
form, and there are some. -/
lemma isSegment_resolved (hacc : ∀ s ∈ acc, IsSegment s)
    (h : ∀ s ∈ ss, ∀ c ∈ s, isSeparator true c = false) (hne : ss ≠ []) :
    resolved false acc ss ≠ [] ∧ ∀ s ∈ resolved false acc ss, IsSegment s := by
  have hextended : ∀ {acc s}, (∀ t ∈ acc, IsSegment t) → (∀ c ∈ s, isSeparator true c = false) →
      isHere s = false → isAbove s = false → ∀ t ∈ extended false acc s, IsSegment t := by
    intro acc s hacc hs hhere habove
    exact isSegment_of_mem_concat hacc (isSegment_encoded hs hhere habove)
  induction ss generalizing acc with
  | nil => exact absurd rfl hne
  | cons s ss ih =>
    have hs := h s (.head _)
    have hrest : ∀ t ∈ ss, ∀ c ∈ t, isSeparator true c = false := fun t ht => h t (.tail _ ht)
    cases ss with
    | nil =>
      rw [resolved]
      split_ifs with habove hhere
      · exact ⟨by simp, isSegment_of_mem_concat (isSegment_of_mem_shortened hacc) isSegment_nil⟩
      · exact ⟨by simp, isSegment_of_mem_concat hacc isSegment_nil⟩
      · exact ⟨by simp [extended], hextended hacc hs (by simpa using hhere) (by simpa using habove)⟩
    | cons t ts =>
      rw [resolved]
      · split_ifs with habove hhere
        · exact ih (isSegment_of_mem_shortened hacc) hrest (List.cons_ne_nil _ _)
        · exact ih hacc hrest (List.cons_ne_nil _ _)
        · exact ih (hextended hacc hs (by simpa using hhere) (by simpa using habove)) hrest
            (List.cons_ne_nil _ _)
      · exact fun hnil => List.cons_ne_nil _ _ hnil

/-! ### Whole paths -/

/-- The path behind an authority has segments, all in their final form. -/
theorem isSegment_pathBehindAuthority (hspecial : isSpecial scheme = true)
    (hfile : isFile scheme = false) (text : List Char) :
    pathBehindAuthority scheme text ≠ [] ∧ ∀ s ∈ pathBehindAuthority scheme text, IsSegment s := by
  have hpath : ∀ text, pathSegments scheme [] text ≠ [] ∧
      ∀ s ∈ pathSegments scheme [] text, IsSegment s := by
    intro text
    simp only [pathSegments, hspecial, hfile, Bool.false_eq_true, if_false]
    exact isSegment_resolved (fun s hs => absurd hs List.not_mem_nil)
      (fun s hs c hc => not_isSeparator_of_mem_cutSegments hs hc) (cutSegments_ne_nil _ _)
  rw [pathBehindAuthority.eq_def]
  split
  · rw [if_pos hspecial]
    exact ⟨List.cons_ne_nil _ _, fun s hs => List.mem_singleton.1 hs ▸ isSegment_nil⟩
  · split_ifs
    · exact hpath _
    · exact hpath _

/-- A path of segments in their final form is read back from its text. -/
theorem pathBehindAuthority_segmentsText (hfile : isFile scheme = false) (hne : ss ≠ [])
    (h : ∀ s ∈ ss, IsSegment s) : pathBehindAuthority scheme (segmentsText ss) = ss := by
  have hcut : cutSegments (isSpecial scheme) (Text.joined '/' ss) = ss :=
    cutSegments_joined hne fun s hs c hc => isSeparator_of_special ((h s hs).whole c hc)
  rw [segmentsText_eq hne, pathBehindAuthority, if_pos (isSeparator_slash _)]
  simp only [pathSegments, hcut, hfile, Bool.false_eq_true, if_false]
  exact resolved_final h fun s _ => rfl

/-- If the text of a path ends with `/`, the last segment is empty. -/
lemma exists_of_ends (h : ∀ s ∈ ss, IsSegment s)
    (hends : (segmentsText ss).getLast? = some '/') : ∃ front, ss = front ++ [[]] := by
  rcases List.eq_nil_or_concat ss with rfl | ⟨front, s, rfl⟩
  · exact nomatch hends
  · refine ⟨front, ?_⟩
    rcases List.eq_nil_or_concat s with rfl | ⟨s, c, rfl⟩
    · rw [List.concat_eq_append]
    · -- the last character would be a separator within a segment
      rw [List.concat_eq_append, List.concat_eq_append] at hends
      simp only [segmentsText, List.flatMap_append, List.flatMap_singleton, ← List.cons_append,
        ← List.append_assoc, List.getLast?_concat, Option.some.injEq] at hends
      have hwhole := (h (s ++ [c]) (by simp)).whole c (by simp)
      rw [hends] at hwhole
      exact absurd hwhole (by decide)

lemma segmentsText_concat (ss : List (List Char)) (s : List Char) :
    segmentsText (ss ++ [s]) = segmentsText ss ++ '/' :: s := by
  simp [segmentsText]

end PackageStaging.Url
