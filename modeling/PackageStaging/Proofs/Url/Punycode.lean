/-
# Labels are read back from Punycode

The writer goes over the label once for each code point beyond ASCII, and the reader puts in one
character after the other.  When the writer has passed some part of the label on its way for a code
point, the reader has everything that is less, and what is equal in the part that was passed
(`inPlace`).  The number that the writer has counted up is how far the reader is behind
(`Follows`).  Each step of the writer keeps this, so all passes over the label do, and the reader
ends with the label (`decode?_encode`).
-/
import Mathlib.Data.List.TakeWhile
import Mathlib.Tactic.Lemma
import Mathlib.Tactic.Ring
import PackageStaging.Url.Punycode

namespace PackageStaging.Url.Punycode

variable {label basic front back codes : List Nat} {rest : List Char} {p : Progress}
  {code bias i q n m c : Nat}

/-! ### Numbers -/

lemma digitValue?_digitChar : ∀ n < 36, digitValue? (digitChar n) = some n := by decide

lemma digitChar_ne_hyphen : ∀ n < 36, digitChar n ≠ '-' := by decide

/-- The digit at a place, unless it is the last one. -/
lemma middleDigit_lt (q k bias : Nat) :
    threshold k bias + (q - threshold k bias) % (36 - threshold k bias) < 36 := by
  have hle := threshold_le k bias
  have hmod := Nat.mod_lt (q - threshold k bias) (y := 36 - threshold k bias) (by omega)
  omega

/-- A text of digits. -/
def IsDigits (w : List Char) : Prop := ∀ x ∈ w, ∃ d < 36, x = digitChar d

lemma isDigits_digits (q k bias : Nat) : IsDigits (digits q k bias) := by
  induction q using Nat.strongRecOn generalizing k with
  | _ q ih =>
    intro x h
    rw [digits] at h
    have hpos := threshold_pos k bias
    have hle := threshold_le k bias
    split at h
    · exact ⟨q, by omega, List.mem_singleton.1 h⟩
    · rcases List.mem_cons.1 h with rfl | h
      · exact ⟨_, middleDigit_lt q k bias, rfl⟩
      · exact ih _ (lt_of_le_of_lt (Nat.div_le_self _ _) (by omega)) _ x h

/-- A number that is read goes over into the next insertion. -/
lemma decodePlaces_digits (old i weight k : Nat)
    (hvalid : (code + (i + q * weight) / (label.length + 1)).isValidChar) :
    decodePlaces label code bias i old weight k (digits q k bias ++ rest) =
      decodePlaces
        (insertAt label ((i + q * weight) % (label.length + 1))
          (code + (i + q * weight) / (label.length + 1)))
        (code + (i + q * weight) / (label.length + 1))
        (adapted (i + q * weight - old) (label.length + 1) (old == 0))
        ((i + q * weight) % (label.length + 1) + 1) ((i + q * weight) % (label.length + 1) + 1)
        1 36 rest := by
  induction q using Nat.strongRecOn generalizing i weight k with
  | _ q ih =>
    have hpos := threshold_pos k bias
    have hle := threshold_le k bias
    rw [digits]
    split
    · next hlast =>
      have hcode : ¬ (0x110000 ≤ code + (i + q * weight) / (label.length + 1) ∨
          (0xD800 ≤ code + (i + q * weight) / (label.length + 1) ∧
            code + (i + q * weight) / (label.length + 1) < 0xE000)) := by
        rcases hvalid with h | h <;> omega
      rw [List.singleton_append, decodePlaces, digitValue?_digitChar q (by omega)]
      simp only [Option.bind_eq_bind, Option.bind_some, if_pos hlast, if_neg hcode]
    · next hmore =>
      set t := threshold k bias
      -- the digit and the rest of the number, which weighs more, make up the number
      have hnumber : t + (q - t) % (36 - t) + (q - t) / (36 - t) * (36 - t) = q := by
        have := Nat.mod_add_div' (q - t) (36 - t)
        omega
      have hsum : i + (t + (q - t) % (36 - t)) * weight +
          (q - t) / (36 - t) * (weight * (36 - t)) = i + q * weight := by
        calc i + (t + (q - t) % (36 - t)) * weight + (q - t) / (36 - t) * (weight * (36 - t))
            = i + (t + (q - t) % (36 - t) + (q - t) / (36 - t) * (36 - t)) * weight := by ring
          _ = i + q * weight := by rw [hnumber]
      have hless : (q - t) / (36 - t) < q :=
        lt_of_le_of_lt (Nat.div_le_self _ _) (by omega)
      rw [List.cons_append, decodePlaces, digitValue?_digitChar _ (middleDigit_lt q k bias)]
      simp only [Option.bind_eq_bind, Option.bind_some]
      rw [if_neg (by omega), ih _ hless _ _ _ (by rwa [hsum]), hsum]

/-- The number of places up to an insertion leads to that insertion. -/
lemma decodePlaces_insertion {place : Nat} (hplace : place ≤ label.length) (hcode : n ≤ code)
    (hvalid : code.isValidChar) (hq : q + i = (code - n) * (label.length + 1) + place) :
    decodePlaces label n bias i i 1 36 (digits q 36 bias ++ rest) =
      decodePlaces (insertAt label place code) code (adapted q (label.length + 1) (i == 0))
        (place + 1) (place + 1) 1 36 rest := by
  have hsum : i + q * 1 = place + (label.length + 1) * (code - n) := by
    rw [Nat.mul_one, Nat.add_comm i, hq, Nat.mul_comm, Nat.add_comm]
  have hdiv : (i + q * 1) / (label.length + 1) = code - n := by
    rw [hsum, Nat.add_mul_div_left _ _ (by omega), Nat.div_eq_of_lt (by omega), Nat.zero_add]
  have hmod : (i + q * 1) % (label.length + 1) = place := by
    rw [hsum, Nat.add_mul_mod_self_left, Nat.mod_eq_of_lt (by omega)]
  have hnext : n + (code - n) = code := by omega
  have hpassed : i + q * 1 - i = q := by omega
  rw [decodePlaces_digits i i 1 36 (by rwa [hdiv, hnext]), hdiv, hmod, hnext, hpassed]

/-! ### One pass -/

/-- The characters that are in place when the part `front` of a label has been passed for a code
point and the part `back` has not. -/
def inPlace (code : Nat) (front back : List Nat) : List Nat :=
  front.filter (· ≤ code) ++ back.filter (· < code)

lemma inPlace_of_le (h : c ≤ code) :
    inPlace code (front ++ [c]) back = front.filter (· ≤ code) ++ c :: back.filter (· < code) := by
  simp [inPlace, h]

lemma inPlace_of_gt (h : code < c) :
    inPlace code (front ++ [c]) back = inPlace code front (c :: back) := by
  have hle : ¬ c ≤ code := by omega
  have hlt : ¬ c < code := by omega
  simp [inPlace, hle, hlt]

/-- The reader, which starts with the characters of ASCII, has read all digits `w` that are written
and is at place `i` for the code point `n`.  The writer has counted up how far that is behind. -/
structure Follows (basic : List Nat) (start : List Char) (code : Nat) (front back : List Nat)
    (p : Progress) (w : List Char) (n i : Nat) : Prop where
  placed : p.placed = (inPlace code front back).length
  written : p.written = start ++ w
  digits : IsDigits w
  le : n ≤ code
  delta : p.delta + i = (code - n) * (p.placed + 1) + (front.filter (· ≤ code)).length
  /-- The reader knows the first insertion by its place, the writer by what is in place. -/
  first : (p.placed == basic.length) = (i == 0)
  grown : basic.length ≤ p.placed
  reads : ∀ rest, decodePlaces basic 0x80 72 0 0 1 36 (w ++ rest) =
    decodePlaces (inPlace code front back) n p.bias i i 1 36 rest

variable {start w : List Char}

namespace Follows

/-- A lesser character is in place already, so that the reader has to go past it. -/
lemma pass_lt (h : Follows basic start code front (c :: back) p w n i) (hlt : c < code) :
    Follows basic start code (front ++ [c]) back { p with delta := p.delta + 1 } w n i := by
  have hsame : inPlace code (front ++ [c]) back = inPlace code front (c :: back) := by
    rw [inPlace_of_le hlt.le, inPlace, List.filter_cons_of_pos (by simpa using hlt)]
  have hlength : ((front ++ [c]).filter (· ≤ code)).length =
      (front.filter (· ≤ code)).length + 1 := by simp [hlt.le]
  exact {
    placed := hsame ▸ h.placed
    written := h.written
    digits := h.digits
    le := h.le
    delta := by
      have hdelta := h.delta
      rw [hlength]
      show p.delta + 1 + i = (code - n) * (p.placed + 1) + _
      omega
    first := h.first
    grown := h.grown
    reads := hsame ▸ h.reads }

/-- A greater character is not there yet. -/
lemma pass_gt (h : Follows basic start code front (c :: back) p w n i) (hgt : code < c) :
    Follows basic start code (front ++ [c]) back p w n i := by
  have hlength : (front ++ [c]).filter (· ≤ code) = front.filter (· ≤ code) := by
    have hle : ¬ c ≤ code := by omega
    simp [hle]
  exact {
    placed := inPlace_of_gt hgt ▸ h.placed
    written := h.written
    digits := h.digits
    le := h.le
    delta := hlength ▸ h.delta
    first := h.first
    grown := h.grown
    reads := inPlace_of_gt hgt ▸ h.reads }

/-- The character itself is put in by the reader behind those that have been passed. -/
lemma pass_eq (h : Follows basic start c front (c :: back) p w n i) (hvalid : c.isValidChar) :
    Follows basic start c (front ++ [c]) back
      ⟨0, adapted p.delta (p.placed + 1) (p.placed == basic.length), p.placed + 1,
        p.written ++ Punycode.digits p.delta 36 p.bias⟩
      (w ++ Punycode.digits p.delta 36 p.bias) c ((front.filter (· ≤ c)).length + 1) := by
  have hplaced := h.placed
  have hbefore : inPlace c front (c :: back) =
      front.filter (· ≤ c) ++ back.filter (· < c) := by
    rw [inPlace, List.filter_cons_of_neg (by simp)]
  have hafter : inPlace c (front ++ [c]) back =
      insertAt (inPlace c front (c :: back)) (front.filter (· ≤ c)).length c := by
    rw [inPlace_of_le le_rfl, hbefore, insertAt, List.take_left, List.drop_left]
  have hgrown : (inPlace c (front ++ [c]) back).length = p.placed + 1 := by
    rw [hplaced, inPlace_of_le le_rfl, hbefore, List.length_append, List.length_append,
      List.length_cons]
    rfl
  exact {
    placed := hgrown.symm
    written := by
      show p.written ++ _ = _
      rw [h.written, List.append_assoc]
    digits := fun x hx => (List.mem_append.1 hx).elim (h.digits x) (isDigits_digits _ _ _ x)
    le := le_rfl
    delta := by simp
    first := by
      have hmore : p.placed + 1 ≠ basic.length := by have := h.grown; omega
      simp [hmore]
    grown := h.grown.trans (Nat.le_succ _)
    reads := by
      intro rest
      have hplace : (front.filter (· ≤ c)).length ≤ (inPlace c front (c :: back)).length := by
        rw [hbefore, List.length_append]
        exact Nat.le_add_right _ _
      have hdelta := h.delta
      rw [hplaced] at hdelta
      rw [List.append_assoc, h.reads, decodePlaces_insertion hplace h.le hvalid hdelta, hafter,
        ← h.first, ← hplaced] }

/-- The next character is passed. -/
lemma pass (h : Follows basic start code front (c :: back) p w n i) (hvalid : c.isValidChar) :
    ∃ w n i, Follows basic start code (front ++ [c]) back (pass basic.length code p c) w n i := by
  rw [Punycode.pass]
  split_ifs with hlt heq
  · exact ⟨w, n, i, h.pass_lt hlt⟩
  · subst heq
    exact ⟨_, _, _, h.pass_eq hvalid⟩
  · exact ⟨w, n, i, h.pass_gt (by omega)⟩

/-- The rest of the label is passed. -/
lemma place (h : Follows basic start code front back p w n i)
    (hvalid : ∀ c ∈ back, c.isValidChar) :
    ∃ w n i, Follows basic start code (front ++ back) [] (place back basic.length code p)
      w n i := by
  induction back generalizing front p w n i with
  | nil =>
    rw [List.append_nil]
    exact ⟨w, n, i, h⟩
  | cons c back ih =>
    obtain ⟨w', n', i', hnext⟩ := h.pass (hvalid c (.head _))
    have hrest := ih hnext fun d hd => hvalid d (.tail _ hd)
    rwa [List.append_assoc] at hrest

/-- Code points that do not occur are gone over. -/
lemma advance (h : Follows basic start code [] label p w n i) (hle : code ≤ m)
    (hnone : ∀ c ∈ label, c < m → c < code) :
    Follows basic start m [] label { p with delta := p.delta + (m - code) * (p.placed + 1) }
      w n i := by
  have hsame : inPlace m [] label = inPlace code [] label := by
    simp only [inPlace, List.filter_nil, List.nil_append]
    exact List.filter_congr fun c hc => decide_eq_decide.2 ⟨hnone c hc, fun hlt => by omega⟩
  exact {
    placed := hsame ▸ h.placed
    written := h.written
    digits := h.digits
    le := h.le.trans hle
    delta := by
      have hdelta := h.delta
      have hn := h.le
      have hsplit : m - n = (code - n) + (m - code) := by omega
      simp only [List.filter_nil, List.length_nil] at hdelta ⊢
      rw [hsplit, Nat.add_mul]
      omega
    first := h.first
    grown := h.grown
    reads := hsame ▸ h.reads }

/-- After a pass the next code point is looked for from the front on. -/
lemma again (h : Follows basic start code label [] p w n i) :
    Follows basic start (code + 1) [] label { p with delta := p.delta + 1 } w n i := by
  have hsame : inPlace (code + 1) [] label = inPlace code label [] := by
    simp only [inPlace, List.filter_nil, List.nil_append, List.append_nil, Nat.lt_succ_iff]
  exact {
    placed := hsame ▸ h.placed
    written := h.written
    digits := h.digits
    le := h.le.trans (Nat.le_succ _)
    delta := by
      have hdelta := h.delta
      have hn := h.le
      have hlength : (label.filter (· ≤ code)).length = p.placed := by
        rw [h.placed, inPlace, List.filter_nil, List.append_nil]
      have hsplit : code + 1 - n = (code - n) + 1 := by omega
      simp only [List.filter_nil, List.length_nil]
      rw [hsplit, Nat.add_mul, Nat.one_mul]
      omega
    first := h.first
    grown := h.grown
    reads := hsame ▸ h.reads }

end Follows

/-- Once the writer has gone over the label for every code point that is left, the reader has the
label. -/
lemma decodePlaces_placeAll (h : Follows basic start n [] label p w m i)
    (hvalid : ∀ c ∈ label, c.isValidChar) (hascends : codes.Pairwise (· < ·))
    (hleast : ∀ code ∈ codes, n ≤ code) (hall : ∀ c ∈ label, n ≤ c → c ∈ codes) :
    ∃ w, (placeAll label basic.length codes n p).written = start ++ w ∧ IsDigits w ∧
      decodePlaces basic 0x80 72 0 0 1 36 w = some label := by
  induction codes generalizing n p w m i with
  | nil =>
    have hlabel : inPlace n [] label = label := by
      rw [inPlace, List.filter_nil, List.nil_append, List.filter_eq_self]
      intro c hc
      rw [decide_eq_true_eq]
      exact lt_of_not_ge fun hge => List.not_mem_nil (hall c hc hge)
    have hend := h.reads []
    rw [List.append_nil, hlabel, decodePlaces, if_pos rfl] at hend
    exact ⟨w, h.written, h.digits, hend⟩
  | cons code codes ih =>
    obtain ⟨hless, hascends⟩ := List.pairwise_cons.1 hascends
    have hn := hleast code (.head _)
    have hnone : ∀ c ∈ label, c < code → c < n := by
      intro c hc hlt
      by_contra hge
      rcases List.mem_cons.1 (hall c hc (by omega)) with rfl | hmem
      · exact lt_irrefl _ hlt
      · have := hless c hmem
        omega
    obtain ⟨w', m', i', hpassed⟩ := (h.advance hn hnone).place hvalid
    refine ih hpassed.again hascends hless fun c hc hlt => ?_
    rcases List.mem_cons.1 (hall c hc (by omega)) with rfl | hmem
    · omega
    · exact hmem

lemma nodup_eraseDups (l : List Nat) : l.eraseDups.Nodup := by
  induction hlength : l.length using Nat.strongRecOn generalizing l with
  | _ k ih =>
    cases l with
    | nil => simp
    | cons a l =>
      rw [List.eraseDups_cons, List.nodup_cons, List.mem_eraseDups]
      refine ⟨by simp, ih _ ?_ _ rfl⟩
      have := List.length_filter_le (fun b => !b == a) l
      rw [List.length_cons] at hlength
      omega

lemma mem_others : c ∈ others codes ↔ c ∈ codes ∧ 0x80 ≤ c := by
  rw [others, List.mem_mergeSort, List.mem_eraseDups, List.mem_filter, decide_eq_true_eq]

lemma pairwise_others (codes : List Nat) : (others codes).Pairwise (· < ·) := by
  have hsorted : (others codes).Pairwise fun a b => decide (a ≤ b) = true := by
    refine List.pairwise_mergeSort ?_ ?_ _
    · intro a b c hab hbc
      simp only [decide_eq_true_eq] at hab hbc ⊢
      exact hab.trans hbc
    · intro a b
      simpa using le_total a b
  have hnodup : (others codes).Nodup :=
    (List.mergeSort_perm _ _).nodup_iff.2 (nodup_eraseDups _)
  exact hsorted.imp₂ (fun a b hle hne => lt_of_le_of_ne (of_decide_eq_true hle) hne) hnodup

/-! ### Whole labels -/

/-- What is written behind the characters of ASCII is read as the label. -/
lemma exists_encode_eq (label : List Char) :
    ∃ w, encode label = (if label.filter (fun c => c.toNat < 0x80) = [] then []
        else label.filter (fun c => c.toNat < 0x80) ++ ['-']) ++ w ∧ IsDigits w ∧
      decodePlaces ((label.filter fun c => c.toNat < 0x80).map Char.toNat) 0x80 72 0 0 1 36 w =
        some (label.map Char.toNat) := by
  set ascii := label.filter fun c => c.toNat < 0x80
  set start := if ascii = [] then [] else ascii ++ ['-']
  have hbasic : inPlace 0x80 [] (label.map Char.toNat) = ascii.map Char.toNat := by
    rw [inPlace, List.filter_nil, List.nil_append, List.filter_map]
    rfl
  have hlength : (ascii.map Char.toNat).length = ascii.length := List.length_map _
  have hstart : Follows (ascii.map Char.toNat) start 0x80 [] (label.map Char.toNat)
      ⟨0, 72, ascii.length, start⟩ [] 0x80 0 := {
    placed := by rw [hbasic, hlength]
    written := (List.append_nil _).symm
    digits := fun x hx => nomatch hx
    le := le_rfl
    delta := by simp
    first := by simp
    grown := hlength.le
    reads := fun rest => by rw [hbasic]; rfl }
  have hvalid : ∀ c ∈ label.map Char.toNat, c.isValidChar := by
    intro c hc
    obtain ⟨x, -, rfl⟩ := List.mem_map.1 hc
    exact x.valid
  have hend := decodePlaces_placeAll hstart hvalid (pairwise_others _)
    (fun m hm => (mem_others.1 hm).2) fun c hc hge => mem_others.2 ⟨hc, hge⟩
  rwa [hlength] at hend

lemma mem_encode {label : List Char} {x : Char} (h : x ∈ encode label) :
    (x ∈ label ∧ x.toNat < 0x80) ∨ x = '-' ∨ ∃ d < 36, x = digitChar d := by
  obtain ⟨w, hw, hdigits, -⟩ := exists_encode_eq label
  rw [hw, List.mem_append] at h
  rcases h with h | h
  · split_ifs at h
    · exact absurd h List.not_mem_nil
    · rcases List.mem_append.1 h with h | h
      · rw [List.mem_filter, decide_eq_true_eq] at h
        exact .inl h
      · exact .inr (.inl (List.mem_singleton.1 h))
  · exact .inr (.inr (hdigits x h))

/-- The numbers are what stands behind the last hyphen. -/
lemma tail_eq {w : List Char} (hw : IsDigits w) (front : List Char)
    (hfront : front = [] ∨ ∃ ascii, front = ascii ++ ['-']) :
    ((front ++ w).reverse.takeWhile (· ≠ '-')).reverse = w := by
  have hne : ∀ x ∈ w.reverse, decide (x ≠ '-') = true := by
    intro x hx
    obtain ⟨d, hd, rfl⟩ := hw x (List.mem_reverse.1 hx)
    exact decide_eq_true (digitChar_ne_hyphen d hd)
  rw [List.reverse_append, List.takeWhile_append_of_pos hne]
  rcases hfront with rfl | ⟨ascii, rfl⟩ <;> simp

/-- A label is read back from its form in ASCII. -/
theorem decode?_encode (label : List Char) : decode? (encode label) = some label := by
  obtain ⟨w, hw, hdigits, hreads⟩ := exists_encode_eq label
  set ascii := label.filter fun c => c.toNat < 0x80
  set front := if ascii = [] then [] else ascii ++ ['-'] with hfront
  have htail := tail_eq hdigits front (by
    rw [hfront]
    split_ifs
    · exact .inl rfl
    · exact .inr ⟨ascii, rfl⟩)
  have hascii : ((front ++ w).take ((front ++ w).length - w.length)).dropLast = ascii := by
    rw [List.length_append, Nat.add_sub_cancel, List.take_left, hfront]
    split_ifs with hnone
    · exact hnone.symm
    · exact List.dropLast_concat
  have hback : (label.map Char.toNat).map Char.ofNat = label := by
    simp [Function.comp_def]
  rw [decode?, hw, htail, hascii, hreads, Option.map_some, hback]

end PackageStaging.Url.Punycode
