/-
# Domains in their final form

What a domain is brought to is brought to itself (`inAscii_final`): a label of ASCII stands for
itself already, and one beyond ASCII is written so that it is read back.  A text of small letters,
digits and dots in which no label has the mark of the latter is its own form (`inAscii_eq_self`).
Whoever reads addresses needs no more than this of the rules for domains (`LawfulRules`).
-/
import PackageStaging.Proofs.Outcome
import PackageStaging.Proofs.Text.Utf8
import PackageStaging.Proofs.Url.Punycode
import PackageStaging.Url.Domain

namespace PackageStaging.Url.Domain

variable {domain name label a : List Char} {c d : Char} {l : List Char}

/-! ### Characters -/

/-- The small letter of a letter is no capital of ASCII. -/
lemma small_not_capital (n : Nat) : ¬ (0x41 ≤ small n ∧ small n ≤ 0x5A) := by
  have hcapitals : ∀ r ∈ capitals, 0x5A < r.1 + r.2.2 := by decide
  have hpairs : ∀ r ∈ pairs, 0x5A < r.1 := by decide
  rw [small]
  split
  · next r hr =>
    have hless := hcapitals r (List.mem_of_find?_eq_some hr)
    have hrange := List.find?_some hr
    simp only [Bool.and_eq_true, decide_eq_true_eq] at hrange
    omega
  · next hnone =>
    split
    · next r hr =>
      have hless := hpairs r (List.mem_of_find?_eq_some hr)
      have hrange := List.find?_some hr
      simp only [Bool.and_eq_true, decide_eq_true_eq] at hrange
      split <;> omega
    · -- a capital letter is in the first range of the table
      rintro ⟨hlow, hhigh⟩
      have hfirst := List.find?_eq_none.1 hnone (0x41, 0x5A, 32) (by decide)
      simp only [Bool.and_eq_true, decide_eq_true_eq, not_and] at hfirst
      split_ifs at hlow hhigh
      · omega
      · exact hfirst hlow hhigh

lemma mapped_of_ascii (hascii : c.toNat < 0x80) (hsmall : ¬ (0x41 ≤ c.toNat ∧ c.toNat ≤ 0x5A)) :
    mapped c = some [c] :=
  Utf8.forall_ascii
    (P := fun c => ¬ (0x41 ≤ c.toNat ∧ c.toNat ≤ 0x5A) → mapped c = some [c])
    (by decide +kernel) hascii hsmall

/-- What is written for a character that differs in its shape stands for itself. -/
lemma mapped_of_mem_spelling {e : Char × List Char} (he : e ∈ spellings) (hc : c ∈ e.2) :
    mapped c = some [c] := by
  have hall : (spellings.all fun e => e.2.all fun c => mapped c = some [c]) = true := by
    decide +kernel
  exact of_decide_eq_true (List.all_eq_true.1 (List.all_eq_true.1 hall e he) c hc)

/-- What stands for a character stands for itself, if it is of ASCII. -/
lemma mapped_of_mem_mapped (h : mapped d = some l) (hc : c ∈ l) (hascii : c.toNat < 0x80) :
    mapped c = some [c] := by
  have hsmall : ∀ n, c = Char.ofNat (small n) → mapped c = some [c] := by
    intro n hn
    refine mapped_of_ascii hascii fun hcapital => small_not_capital n ?_
    by_cases hvalid : (small n).isValidChar
    · rw [hn, Char.ofNat, dif_pos hvalid] at hcapital
      exact hcapital
    · rw [hn, Char.ofNat, dif_neg hvalid] at hcapital
      exact absurd hcapital.1 (by decide)
  rw [mapped] at h
  split at h
  · next l' hspelling =>
    obtain rfl := Option.some.inj h
    obtain ⟨before, behind, htable, -⟩ := List.lookup_eq_some_iff.1 hspelling
    have hmem : (d, l') ∈ spellings := by
      rw [htable]
      exact List.mem_append_right _ (.head _)
    exact mapped_of_mem_spelling hmem hc
  · dsimp only at h
    split_ifs at h
    · rw [← Option.some.inj h] at hc
      exact absurd hc List.not_mem_nil
    · rw [← Option.some.inj h, List.mem_singleton] at hc
      rw [hc]
      decide +kernel
    · rw [← Option.some.inj h, List.mem_singleton] at hc
      exact hsmall _ hc
    · rw [← Option.some.inj h, List.mem_singleton] at hc
      exact hsmall _ hc

/-! ### Labels -/

/-- Characters of a domain in its final form. -/
structure IsFinal (c : Char) : Prop where
  ascii : c.toNat < 0x80
  mapped : mapped c = some [c]

lemma isFinal_digitChar : ∀ d < 36, IsFinal (Punycode.digitChar d) := by
  have hall : ∀ d < 36, (Punycode.digitChar d).toNat < 0x80 ∧
      mapped (Punycode.digitChar d) = some [Punycode.digitChar d] := by decide +kernel
  exact fun d hd => ⟨(hall d hd).1, (hall d hd).2⟩

lemma digitChar_ne_dot : ∀ d < 36, Punycode.digitChar d ≠ '.' := by decide

/-- A label that is written in ASCII keeps its form. -/
lemma labelInAscii_final (hdot : '.' ∉ label)
    (hmapped : ∀ c ∈ label, c.toNat < 0x80 → mapped c = some [c])
    (h : labelInAscii label = some a) :
    labelInAscii a = some a ∧ '.' ∉ a ∧ ∀ c ∈ a, IsFinal c := by
  by_cases hall : (label.all fun c => c.toNat < 0x80) = true
  · -- a label of ASCII stays as it is
    have hself : a = label := by
      rw [labelInAscii, if_pos hall] at h
      split_ifs at h
      · split at h
        · split_ifs at h
          exact (Option.some.inj h).symm
        · exact nomatch h
      · exact (Option.some.inj h).symm
    subst hself
    refine ⟨h, hdot, fun c hc => ?_⟩
    have hascii := of_decide_eq_true (List.all_eq_true.1 hall c hc)
    exact ⟨hascii, hmapped c hc hascii⟩
  · rw [labelInAscii, if_neg hall] at h
    split_ifs at h with hsettled
    obtain rfl := Option.some.inj h
    have hfinal : ∀ c ∈ mark ++ Punycode.encode label, IsFinal c ∧ c ≠ '.' := by
      have hhyphen : IsFinal '-' := ⟨by decide, mapped_of_ascii (by decide) (by decide)⟩
      intro c hc
      rcases List.mem_append.1 hc with hc | hc
      · simp only [mark, List.mem_cons, List.not_mem_nil, or_false] at hc
        rcases hc with rfl | rfl | rfl | rfl
        all_goals exact ⟨⟨by decide, mapped_of_ascii (by decide) (by decide)⟩, by decide⟩
      · rcases Punycode.mem_encode hc with ⟨hc, hascii⟩ | rfl | ⟨d, hd, rfl⟩
        · exact ⟨⟨hascii, hmapped c hc hascii⟩, fun heq => hdot (heq ▸ hc)⟩
        · exact ⟨hhyphen, by decide⟩
        · exact ⟨isFinal_digitChar d hd, digitChar_ne_dot d hd⟩
    refine ⟨?_, fun hc => (hfinal _ hc).2 rfl, fun c hc => (hfinal c hc).1⟩
    have hascii : ((mark ++ Punycode.encode label).all fun c => c.toNat < 0x80) = true :=
      List.all_eq_true.2 fun c hc => decide_eq_true (hfinal c hc).1.ascii
    have hbeyond : (label.any fun c => 0x80 ≤ c.toNat) = true := by
      rw [List.all_eq_true] at hall
      simp only [not_forall, decide_eq_true_eq, not_lt] at hall
      obtain ⟨c, hc, hge⟩ := hall
      exact List.any_eq_true.2 ⟨c, hc, decide_eq_true hge⟩
    have hmark : mark.isPrefixOf (mark ++ Punycode.encode label) = true := by
      rw [List.isPrefixOf_iff_prefix]
      exact List.prefix_append _ _
    have hrest : (mark ++ Punycode.encode label).drop 4 = Punycode.encode label := rfl
    rw [labelInAscii, if_pos hascii, if_pos hmark, hrest, Punycode.decode?_encode]
    simp [hbeyond, hsettled]

/-! ### Whole domains -/

/-- A text of characters and labels that keep their form keeps its own. -/
lemma inAscii_eq_self (hfinal : ∀ c ∈ name, IsFinal c)
    (hlabels : ∀ l ∈ Text.fields '.' name, labelInAscii l = some l)
    (hforbidden : name.any isForbidden = false) : inAscii name = some name := by
  have hcharacters : name.mapM mapped = some (name.map fun c => [c]) := by
    rw [mapM_eq_some_iff, List.forall₂_map_right_iff, List.forall₂_same]
    exact fun c hc => (hfinal c hc).mapped
  have hflatten : (name.map fun c => [c]).flatten = name := by
    rw [← List.flatMap_def, List.flatMap_singleton']
  have hself : (Text.fields '.' name).mapM labelInAscii = some (Text.fields '.' name) := by
    rw [mapM_eq_some_iff, List.forall₂_same]
    exact hlabels
  rw [inAscii, hcharacters]
  simp only [Option.bind_eq_bind, Option.bind_some, hflatten, hself, Text.joined_fields,
    hforbidden, Bool.false_eq_true, if_false]

/-- The form in ASCII that a domain is brought to is brought to itself, and consists of characters
that may stand in a host. -/
theorem inAscii_final (h : inAscii domain = some name) :
    inAscii name = some name ∧ ∀ c ∈ name, c.toNat < 0x80 ∧ isForbidden c = false := by
  simp only [inAscii, Option.bind_eq_bind, Option.bind_eq_some_iff] at h
  obtain ⟨characters, hcharacters, labels, hlabels, h⟩ := h
  split_ifs at h with hforbidden
  rw [Bool.not_eq_true] at hforbidden
  obtain rfl := Option.some.inj h
  -- in the text that is cut into labels every character of ASCII stands for itself
  have hmapped : ∀ c ∈ characters.flatten, c.toNat < 0x80 → mapped c = some [c] := by
    intro c hc
    obtain ⟨l, hl, hc⟩ := List.mem_flatten.1 hc
    obtain ⟨d, -, hd⟩ := exists_of_mem_mapM hcharacters hl
    exact mapped_of_mem_mapped hd hc
  have hfields : ∀ l ∈ labels, labelInAscii l = some l ∧ '.' ∉ l ∧ ∀ c ∈ l, IsFinal c := by
    intro l hl
    obtain ⟨label, hlabel, hform⟩ := exists_of_mem_mapM hlabels hl
    exact labelInAscii_final (Text.not_mem_of_mem_fields '.' _ label hlabel)
      (fun c hc => hmapped c (Text.mem_of_mem_fields hlabel hc)) hform
  have hne : labels ≠ [] := by
    have hlength := (mapM_eq_some_iff.1 hlabels).length_eq
    intro hnil
    rw [hnil, List.length_nil, List.length_eq_zero_iff] at hlength
    exact Text.fields_ne_nil _ _ hlength
  have hparts : Text.fields '.' (Text.joined '.' labels) = labels :=
    Text.fields_joined '.' labels hne fun l hl => (hfields l hl).2.1
  have hfinal : ∀ c ∈ Text.joined '.' labels, IsFinal c := by
    intro c hc
    rcases Text.mem_joined hc with rfl | ⟨l, hl, hc⟩
    · exact ⟨by decide, mapped_of_ascii (by decide) (by decide)⟩
    · exact (hfields l hl).2.2 c hc
  refine ⟨inAscii_eq_self hfinal (fun l hl => (hfields l (hparts ▸ hl)).1) hforbidden,
    fun c hc => ⟨(hfinal c hc).ascii, ?_⟩⟩
  rw [List.any_eq_false] at hforbidden
  exact Bool.eq_false_iff.2 (hforbidden c hc)

/-- Digits and dots stand for themselves. -/
lemma inAscii_digits (h : ∀ c ∈ name, c = '.' ∨ c.isDigit = true) : inAscii name = some name := by
  have hall : ∀ c : Char, c.toNat < 0x80 → c = '.' ∨ c.isDigit = true →
      mapped c = some [c] ∧ isForbidden c = false ∧ c ≠ 'x' := fun c hascii hc =>
    Utf8.forall_ascii (P := fun c => c = '.' ∨ c.isDigit = true →
      mapped c = some [c] ∧ isForbidden c = false ∧ c ≠ 'x') (by decide +kernel) hascii hc
  have hascii : ∀ c ∈ name, c.toNat < 0x80 := by
    intro c hc
    rcases h c hc with rfl | hdigit
    · decide
    · simp only [Char.isDigit, Bool.and_eq_true, decide_eq_true_eq] at hdigit
      exact Nat.lt_of_le_of_lt hdigit.2 (by decide)
  refine inAscii_eq_self (fun c hc => ⟨hascii c hc, (hall c (hascii c hc) (h c hc)).1⟩) ?_ ?_
  · intro l hl
    have hmem : ∀ c ∈ l, c ∈ name := fun c hc => Text.mem_of_mem_fields hl hc
    have hlabel : (l.all fun c => c.toNat < 0x80) = true :=
      List.all_eq_true.2 fun c hc => decide_eq_true (hascii c (hmem c hc))
    -- the mark begins with a letter
    have hmark : ¬ mark.isPrefixOf l = true := by
      rw [List.isPrefixOf_iff_prefix]
      intro hbegins
      have hx : 'x' ∈ name := hmem _ (hbegins.subset (.head _))
      exact (hall 'x' (by decide) (h _ hx)).2.2 rfl
    rw [labelInAscii, if_pos hlabel, if_neg hmark]
  · rw [List.any_eq_false]
    intro c hc
    rw [(hall c (hascii c hc) (h c hc)).2.1]
    decide

/-! ### Rules -/

/-- What is known of rules for domains, whichever they are. -/
class LawfulRules [Rules] : Prop where
  /-- A form in ASCII is its own form. -/
  final {domain name : List Char} (h : Rules.ascii? domain = some name) :
    Rules.ascii? name = some name
  /-- It consists of characters that may stand in a host. -/
  allowed {domain name : List Char} (h : Rules.ascii? domain = some name) :
    ∀ c ∈ name, c.toNat < 0x80 ∧ isForbidden c = false
  /-- Digits and dots stand for themselves. -/
  digits {name : List Char} (h : ∀ c ∈ name, c = '.' ∨ c.isDigit = true) :
    Rules.ascii? name = some name

instance : LawfulRules where
  final h := (inAscii_final h).1
  allowed h := (inAscii_final h).2
  digits := inAscii_digits

end PackageStaging.Url.Domain
