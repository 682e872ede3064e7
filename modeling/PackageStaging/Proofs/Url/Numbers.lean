/-
# Numbers of machines are read back

A number in the base in which it is written is read as itself (`numberIn_toDigits`).  So are the
four bytes of an address of 32 bits (`ipv4?_ipv4Text`).  The pieces of one of 128 bits have two
colons in a row where zeros are left out and nowhere else, so that the reader finds both halves
(`ipv6?_ipv6Text`).
-/
import Mathlib.Data.List.TakeWhile
import PackageStaging.Proofs.Outcome
import PackageStaging.Url.Host

namespace PackageStaging.Url

variable {base n : Nat} {s : List Char} {ps : List Nat} {parts : List (List Char)}

/-! ### Digits -/

lemma hexValue?_digitChar : ∀ d < 16, Text.hexValue? d.digitChar = some d := by decide

/-- A number is read as itself. -/
lemma numberIn_toDigits (hbase : 1 < base) (hhex : base ≤ 16) (n : Nat) :
    Text.numberIn base (Nat.toDigits base n) = some n := by
  induction n using Nat.strongRecOn with
  | _ n ih =>
    by_cases hlt : n < base
    · rw [Nat.toDigits_of_lt_base hlt, Text.numberIn, List.foldlM_cons,
        hexValue?_digitChar n (by omega)]
      simp [hlt]
    · have hmod := Nat.mod_lt n (y := base) (by omega)
      have hfront : Text.numberIn base (Nat.toDigits base (n / base)) = some (n / base) :=
        ih _ (Nat.div_lt_self (by omega) hbase)
      rw [Text.numberIn] at hfront
      rw [Nat.toDigits_of_base_le hbase (by omega), Text.numberIn, List.foldlM_append, hfront]
      simp only [Option.bind_eq_bind, Option.bind_some, List.foldlM_cons, List.foldlM_nil,
        hexValue?_digitChar _ (lt_of_lt_of_le hmod hhex), if_pos hmod]
      show some (n / base * base + n % base) = some n
      rw [Nat.div_add_mod']

lemma mem_toDigits (hbase : 1 < base) {c : Char} (h : c ∈ Nat.toDigits base n) :
    ∃ d < base, c = d.digitChar := by
  induction n using Nat.strongRecOn with
  | _ n ih =>
    by_cases hlt : n < base
    · rw [Nat.toDigits_of_lt_base hlt, List.mem_singleton] at h
      exact ⟨n, hlt, h⟩
    · rw [Nat.toDigits_of_base_le hbase (by omega), List.mem_append, List.mem_singleton] at h
      rcases h with h | h
      · exact ih _ (Nat.div_lt_self (by omega) hbase) h
      · exact ⟨n % base, Nat.mod_lt _ (by omega), h⟩

/-- A digit is none of these characters. -/
lemma not_mem_toDigits (hbase : 1 < base) (hhex : base ≤ 16) {c : Char}
    (hc : ∀ d < 16, c ≠ d.digitChar) : c ∉ Nat.toDigits base n := by
  intro h
  obtain ⟨d, hd, heq⟩ := mem_toDigits hbase h
  exact hc d (by omega) heq

/-- So many digits do not make up a greater number. -/
lemma numberIn_lt {ds : List Char} (h : Text.numberIn base ds = some n) :
    n < Nat.pow base ds.length := by
  have key : ∀ (ds : List Char) (m n : Nat), ds.foldlM (fun n c => do
      let d ← Text.hexValue? c
      if d < base then some (n * base + d) else none) m = some n →
      n < (m + 1) * Nat.pow base ds.length := by
    intro ds
    induction ds with
    | nil =>
      intro m n h
      rw [List.foldlM_nil] at h
      rw [← Option.some.inj h]
      show m < (m + 1) * 1
      omega
    | cons c ds ih =>
      intro m n h
      rw [List.foldlM_cons, Option.bind_eq_bind, Option.bind_eq_some_iff] at h
      obtain ⟨m', hm', h⟩ := h
      obtain ⟨d, -, hm'⟩ := Option.bind_eq_some_iff.1 hm'
      split_ifs at hm' with hd
      have hless := ih m' n h
      rw [← Option.some.inj hm'] at hless
      have hstep : m * base + d + 1 ≤ (m + 1) * base := by
        rw [Nat.add_mul, Nat.one_mul]
        omega
      calc n < (m * base + d + 1) * Nat.pow base ds.length := hless
        _ ≤ (m + 1) * base * Nat.pow base ds.length := Nat.mul_le_mul_right _ hstep
        _ = (m + 1) * Nat.pow base (c :: ds).length := by
          rw [Nat.mul_assoc, Nat.mul_comm base]
          rfl
  have hless := key ds 0 n h
  rwa [Nat.zero_add, Nat.one_mul] at hless

/-! ### Addresses of 32 bits -/

/-- The four bytes of a number. -/
def bytes (n : Nat) : List Nat := [n / 0x1000000, n / 0x10000 % 256, n / 256 % 256, n % 256]

lemma fields_ipv4Text (n : Nat) :
    Text.fields '.' (ipv4Text n) = (bytes n).map (Nat.toDigits 10) := by
  refine Text.fields_joined '.' _ (List.cons_ne_nil _ _) fun part hpart => ?_
  obtain ⟨b, -, rfl⟩ := List.mem_map.1 hpart
  exact not_mem_toDigits (by decide) (by decide) (by decide)

lemma labels_ipv4Text (n : Nat) : labels (ipv4Text n) = (bytes n).map (Nat.toDigits 10) := by
  rw [labels, fields_ipv4Text, if_neg]
  simp [bytes]

lemma endsInNumber_ipv4Text (n : Nat) : endsInNumber (ipv4Text n) = true := by
  have hlast : (labels (ipv4Text n)).getLast? = some (Nat.toDigits 10 (n % 256)) := by
    rw [labels_ipv4Text]
    rfl
  have hdigits : (Nat.toDigits 10 (n % 256)).all Char.isDigit = true :=
    List.all_eq_true.2 fun c hc => Nat.isDigit_of_mem_toDigits (by decide) (by decide) hc
  rw [endsInNumber, hlast]
  simp [hdigits]

lemma ipv4?_ipv4Text (hn : n < 0x100000000) : ipv4? (ipv4Text n) = some n := by
  have hread : ∀ b < 256, ipv4Number? (Nat.toDigits 10 b) = some b := by decide +kernel
  have hparts : ((bytes n).map (Nat.toDigits 10)).mapM ipv4Number? = some (bytes n) := by
    rw [mapM_eq_some_iff, List.forall₂_map_left_iff, List.forall₂_same]
    intro b hb
    simp only [bytes, List.mem_cons, List.not_mem_nil, or_false] at hb
    exact hread b (by omega)
  have hless : ¬ (256 ≤ n % 256) := by omega
  have hsum : ((n / 0x1000000 * 256 + n / 0x10000 % 256) * 256 + n / 256 % 256) * 256 + n % 256 =
      n := by omega
  have hfront : ([n / 256 % 256, n / 0x10000 % 256, n / 0x1000000].any (255 < ·)) = false := by
    simp only [List.any_cons, List.any_nil, Bool.or_false, Bool.or_eq_false_iff,
      decide_eq_false_iff_not]
    omega
  have hpow : Nat.pow 256 (4 - (0 + 1 + 1 + 1)) = 256 := rfl
  rw [ipv4?, labels_ipv4Text, hparts]
  show ipv4OfParts (bytes n) = some n
  simp only [ipv4OfParts, bytes, List.reverse_cons, List.reverse_nil, List.nil_append,
    List.cons_append, List.length_cons, List.length_nil, hfront, hpow]
  rw [if_neg (by simp; omega)]
  simp only [List.foldl_cons, List.foldl_nil, Nat.zero_mul, Nat.zero_add]
  rw [hsum]

lemma ipv4OfParts_lt {parts : List Nat} (h : ipv4OfParts parts = some n) : n < 0x100000000 := by
  simp only [ipv4OfParts] at h
  split at h
  · exact nomatch h
  · next last front hreverse =>
    split_ifs at h with hnot
    simp only [not_or, not_lt, not_le, Bool.not_eq_true] at hnot
    obtain ⟨hlength, hbytes, hlast⟩ := hnot
    rw [← Option.some.inj h]
    -- at most three bytes stand in front of the last part
    rcases front with _ | ⟨a, _ | ⟨b, _ | ⟨c, _ | ⟨d, front⟩⟩⟩⟩ <;>
      simp [Nat.pow_eq] at hlength hbytes hlast ⊢ <;> omega

/-! ### Addresses of 128 bits -/

/-- What is written for a piece. -/
lemma piece?_toDigits (h : n < 0x10000) : piece? (Nat.toDigits 16 n) = some n := by
  have hlength : (Nat.toDigits 16 n).length ≤ 4 :=
    (Nat.length_toDigits_le_iff (by decide) (by decide)).2 h
  rw [piece?, if_neg (by simp; omega), numberIn_toDigits (by decide) (by decide)]

lemma piece?_lt (h : piece? s = some n) : n < 0x10000 := by
  rw [piece?] at h
  split_ifs at h with hlength
  push Not at hlength
  refine (numberIn_lt h).trans_le ?_
  exact Nat.pow_le_pow_right (by decide) hlength.2

lemma pieces?_map (h : ∀ p ∈ ps, p < 0x10000) : pieces? (ps.map (Nat.toDigits 16)) = some ps := by
  induction ps with
  | nil => rfl
  | cons p ps ih =>
    have hp := piece?_toDigits (h p (.head _))
    have hrest := ih fun q hq => h q (.tail _ hq)
    cases ps with
    | nil => simp [pieces?, hp]
    | cons q qs =>
      rw [List.map_cons, pieces?, hp, hrest]
      · rfl
      · simp

lemma piecesText_ne_nil (hne : ps ≠ []) : piecesText ps ≠ [] := by
  obtain ⟨p, ps, rfl⟩ := List.exists_cons_of_ne_nil hne
  cases ps with
  | nil => exact Nat.toDigits_ne_nil
  | cons q qs => exact List.append_ne_nil_of_left_ne_nil Nat.toDigits_ne_nil _

lemma fields_piecesText (hne : ps ≠ []) :
    Text.fields ':' (piecesText ps) = ps.map (Nat.toDigits 16) := by
  refine Text.fields_joined ':' _ (by simpa using hne) fun part hpart => ?_
  obtain ⟨p, -, rfl⟩ := List.mem_map.1 hpart
  exact not_mem_toDigits (by decide) (by decide) (by decide)

lemma somePieces?_piecesText (h : ∀ p ∈ ps, p < 0x10000) :
    somePieces? (piecesText ps) = some ps := by
  by_cases hne : ps = []
  · rw [hne]
    rfl
  · rw [somePieces?, if_neg (piecesText_ne_nil hne), fields_piecesText hne, pieces?_map h]

/-! ### Two colons in a row -/

/-- The parts of a text between colons. -/
def AreParts (parts : List (List Char)) : Prop := ∀ part ∈ parts, part ≠ [] ∧ ':' ∉ part

lemma areParts_map (ps : List Nat) : AreParts (ps.map (Nat.toDigits 16)) := by
  intro part hpart
  obtain ⟨p, -, rfl⟩ := List.mem_map.1 hpart
  exact ⟨Nat.toDigits_ne_nil, not_mem_toDigits (by decide) (by decide) (by decide)⟩

/-- There are no colons within a part. -/
lemma cutColons_part {part : List Char} (h : ':' ∉ part) (rest : List Char) :
    cutColons (part ++ rest) = (cutColons rest).map fun p => (part ++ p.1, p.2) := by
  induction part with
  | nil => simp
  | cons c part ih =>
    have hc : c ≠ ':' := fun heq => h (heq ▸ .head _)
    have hrest := ih fun hmem => h (.tail _ hmem)
    rw [List.cons_append, cutColons.eq_2 _ _ (fun rest' heq _ => hc heq), hrest, Option.map_map]
    rfl

/-- A colon in front of a part is alone. -/
lemma cutColons_colon {c : Char} (hc : c ≠ ':') (rest : List Char) :
    cutColons (':' :: c :: rest) = (cutColons (c :: rest)).map fun p => (':' :: p.1, p.2) := by
  rw [cutColons.eq_2 _ _ (fun rest' _ heq => hc (List.cons.inj heq).1)]

/-- Where the parts of a text end, two colons in a row are looked for in the rest. -/
lemma cutColons_joined (h : AreParts parts) (rest : List Char) :
    cutColons (Text.joined ':' parts ++ rest) =
      (cutColons rest).map fun p => (Text.joined ':' parts ++ p.1, p.2) := by
  induction parts with
  | nil => simp [Text.joined]
  | cons part parts ih =>
    have hpart := (h part (.head _)).2
    cases parts with
    | nil => exact cutColons_part hpart rest
    | cons q qs =>
      obtain ⟨hne, hq⟩ := h q (.tail _ (.head _))
      obtain ⟨c, cs, rfl⟩ := List.exists_cons_of_ne_nil hne
      have hc : c ≠ ':' := fun heq => hq (heq ▸ .head _)
      obtain ⟨tail, htail⟩ : ∃ tail, Text.joined ':' ((c :: cs) :: qs) = c :: tail := by
        cases qs <;> exact ⟨_, rfl⟩
      have hrest := ih fun r hr => h r (.tail _ hr)
      rw [htail, List.cons_append] at hrest
      rw [Text.joined, List.append_assoc, cutColons_part hpart, htail, List.cons_append,
        List.cons_append, cutColons_colon hc, hrest, Option.map_map, Option.map_map]
      · simp [Function.comp_def]
      · simp

/-- The pieces up to the first of the longest runs of zeros, the run, and the pieces behind it. -/
lemma append_cutZeros (h : longestZeros ps = n) (hn : 0 < n) :
    (cutZeros n ps).1 ++ List.replicate n 0 ++ (cutZeros n ps).2 = ps := by
  induction ps with
  | nil => exact absurd h (by simp [longestZeros]; omega)
  | cons p ps ih =>
    rw [cutZeros]
    split_ifs with hzeros
    · have hrun : (p :: ps).takeWhile (· == 0) = List.replicate n 0 := by
        rw [List.eq_replicate_iff]
        refine ⟨hzeros, fun q hq => ?_⟩
        simpa using List.mem_takeWhile_imp hq
      calc [] ++ List.replicate n 0 ++ (p :: ps).drop n
          = (p :: ps).takeWhile (· == 0) ++
              (p :: ps).drop ((p :: ps).takeWhile (· == 0)).length := by
            rw [hrun, List.length_replicate, List.nil_append]
        _ = p :: ps := List.prefix_iff_eq_append.1 (List.takeWhile_prefix _)
    · have hrest : longestZeros ps = n := by
        rw [longestZeros] at h
        omega
      show p :: (cutZeros n ps).1 ++ _ ++ (cutZeros n ps).2 = p :: ps
      rw [List.cons_append, List.cons_append, ih hrest]

/-- What is written for eight pieces is read as those pieces. -/
lemma ipv6?_ipv6Text (hlength : ps.length = 8) (h : ∀ p ∈ ps, p < 0x10000) :
    ipv6? (ipv6Text ps) = some ps := by
  simp only [ipv6Text]
  split_ifs with hshort
  · have hnone : cutColons (piecesText ps) = none := by
      have hcut := cutColons_joined (areParts_map ps) []
      rwa [List.append_nil] at hcut
    rw [ipv6?, hnone]
    simp [somePieces?_piecesText h, hlength]
  · have hzeros := append_cutZeros (n := longestZeros ps) rfl (by omega)
    rcases hcut : cutZeros (longestZeros ps) ps with ⟨front, back⟩
    rw [hcut] at hzeros
    simp only at hzeros ⊢
    have hfront : ∀ p ∈ front, p < 0x10000 := fun p hp => h p (by rw [← hzeros]; simp [hp])
    have hback : ∀ p ∈ back, p < 0x10000 := fun p hp => h p (by rw [← hzeros]; simp [hp])
    have hsum : front.length + longestZeros ps + back.length = 8 := by
      rw [← hlength]
      conv_rhs => rw [← hzeros]
      simp only [List.length_append, List.length_replicate]
    have hcolons : cutColons (piecesText front ++ ':' :: ':' :: piecesText back) =
        some (piecesText front, piecesText back) := by
      rw [piecesText, cutColons_joined (areParts_map front)]
      simp [cutColons]
    have hend : ((somePieces? (piecesText back)).bind fun back =>
        if front.length + back.length ≤ 7 then
          some (front ++ List.replicate (8 - front.length - back.length) 0 ++ back)
        else none) = some ps := by
      have hleft : 8 - front.length - back.length = longestZeros ps := by omega
      rw [somePieces?_piecesText hback, Option.bind_some, if_pos (by omega), hleft, hzeros]
    rw [ipv6?, hcolons]
    simp only [Option.bind_eq_bind]
    split_ifs with hnil
    · have hnone : front = [] := not_imp_comm.1 piecesText_ne_nil (not_not.2 hnil)
      rwa [hnone] at hend
    · have hsome : front ≠ [] := fun hnone => hnil (hnone ▸ rfl)
      have hread : (Text.fields ':' (piecesText front)).mapM piece? = some front := by
        rw [fields_piecesText hsome, mapM_eq_some_iff, List.forall₂_map_left_iff,
          List.forall₂_same]
        exact fun p hp => piece?_toDigits (hfront p hp)
      rwa [hread, Option.bind_some]

/-! ### What can be read -/

lemma byte?_le (h : byte? s = some n) : n ≤ 255 := by
  rw [byte?.eq_def] at h
  split at h
  · exact nomatch h
  · exact nomatch h
  · split_ifs at h
    split at h
    · split_ifs at h with hle
      exact Option.some.inj h ▸ hle
    · exact nomatch h

lemma embedded?_lt (h : embedded? s = some ps) : ∀ p ∈ ps, p < 0x10000 := by
  obtain ⟨bs, hbs, h⟩ := Option.bind_eq_some_iff.1 h
  have hbytes : ∀ b ∈ bs, b ≤ 255 := by
    intro b hb
    obtain ⟨part, -, hpart⟩ := exists_of_mem_mapM hbs hb
    exact byte?_le hpart
  split at h
  · next a b c d =>
    rw [← Option.some.inj h]
    simp only [List.forall_mem_cons, List.not_mem_nil, false_imp_iff, implies_true,
      and_true] at hbytes ⊢
    omega
  · exact nomatch h

lemma pieces?_lt (h : pieces? parts = some ps) : ∀ p ∈ ps, p < 0x10000 := by
  induction parts generalizing ps with
  | nil =>
    rw [← Option.some.inj h]
    exact fun p hp => nomatch hp
  | cons part parts ih =>
    cases parts with
    | nil =>
      rw [pieces?, Option.or_eq_some_iff] at h
      rcases h with h | ⟨-, h⟩
      · obtain ⟨p, hp, rfl⟩ := Option.map_eq_some_iff.1 h
        intro q hq
        rw [List.mem_singleton.1 hq]
        exact piece?_lt hp
      · exact embedded?_lt h
    | cons q qs =>
      rw [pieces?.eq_3 _ _ (by simp)] at h
      obtain ⟨p, hp, h⟩ := Option.bind_eq_some_iff.1 h
      obtain ⟨ps, hps, h⟩ := Option.bind_eq_some_iff.1 h
      rw [← Option.some.inj h]
      exact List.forall_mem_cons.2 ⟨piece?_lt hp, ih hps⟩

lemma somePieces?_lt (h : somePieces? s = some ps) : ∀ p ∈ ps, p < 0x10000 := by
  rw [somePieces?] at h
  split_ifs at h
  · rw [← Option.some.inj h]
    exact fun p hp => nomatch hp
  · exact pieces?_lt h

/-- There are eight pieces, each of 16 bits. -/
lemma ipv6?_bounds (h : ipv6? s = some ps) : ps.length = 8 ∧ ∀ p ∈ ps, p < 0x10000 := by
  rw [ipv6?] at h
  split at h
  · obtain ⟨qs, hqs, h⟩ := Option.bind_eq_some_iff.1 h
    split_ifs at h with hlength
    obtain rfl := Option.some.inj h
    exact ⟨hlength, somePieces?_lt hqs⟩
  · next front back hcut =>
    have key : ∀ fs : List Nat, (∀ p ∈ fs, p < 0x10000) →
        ((somePieces? back).bind fun back =>
          if fs.length + back.length ≤ 7 then
            some (fs ++ List.replicate (8 - fs.length - back.length) 0 ++ back)
          else none) = some ps → ps.length = 8 ∧ ∀ p ∈ ps, p < 0x10000 := by
      intro fs hfs h
      obtain ⟨bs, hbs, h⟩ := Option.bind_eq_some_iff.1 h
      split_ifs at h with hlength
      rw [← Option.some.inj h]
      refine ⟨by simp; omega, fun p hp => ?_⟩
      simp only [List.mem_append, List.mem_replicate] at hp
      rcases hp with (hp | ⟨-, rfl⟩) | hp
      · exact hfs p hp
      · decide
      · exact somePieces?_lt hbs p hp
    simp only [Option.bind_eq_bind] at h
    split_ifs at h with hnil
    · exact key [] (fun p hp => nomatch hp) h
    · obtain ⟨fs, hfs, h⟩ := Option.bind_eq_some_iff.1 h
      refine key fs (fun p hp => ?_) h
      obtain ⟨part, -, hpart⟩ := exists_of_mem_mapM hfs hp
      exact piece?_lt hpart

end PackageStaging.Url
