/-
# Timestamps are read back

A timestamp in its strict form is read as the same instant (`parse_text`), if its year is supported
and a leap second is the last one of its minute.  All timestamps that can be read are such
(`supported_of_parse`).
-/
import Mathlib.Data.List.Induction
import Mathlib.Data.List.TakeWhile
import PackageStaging.Proofs.Outcome
import PackageStaging.Proofs.Timestamp.Calendar

namespace PackageStaging.Timestamp

variable {t : Timestamp} {n w : Nat} {ds rest : List Char}

/-- What can be written and read. -/
structure Supported (t : Timestamp) : Prop where
  year : yearRange.1 ≤ (dateOfDays (t.seconds.fdiv 86400)).1 ∧
    (dateOfDays (t.seconds.fdiv 86400)).1 ≤ yearRange.2
  nanos : t.nanos < 2000000000
  /-- A leap second is the last second of a minute. -/
  leap : 1000000000 ≤ t.nanos → t.seconds % 60 = 59

/-! ### Numbers -/

lemma digitsValue_eq (ds : List Char) : digitsValue ds = Nat.ofDigitChars 10 ds 0 := by
  simp only [digitsValue, Nat.ofDigitChars, Nat.mul_comm 10]

lemma digitsValue_zeros (k : Nat) (ds : List Char) :
    digitsValue (List.replicate k '0' ++ ds) = digitsValue ds := by
  induction k with
  | zero => rfl
  | succ k ih =>
    rw [List.replicate_succ, List.cons_append]
    exact ih

lemma toList_padded (w n : Nat) :
    (padded w n).toList =
      List.replicate (w - (Nat.toDigits 10 n).length) '0' ++ Nat.toDigits 10 n := by
  rw [padded, String.toList_ofList]

lemma digitsValue_padded (w n : Nat) : digitsValue (padded w n).toList = n := by
  rw [toList_padded, digitsValue_zeros, digitsValue_eq, Nat.ofDigitChars_ten_toDigits]

lemma isDigit_padded (w n : Nat) : ∀ c ∈ (padded w n).toList, c.isDigit = true := by
  intro c hc
  rw [toList_padded, List.mem_append] at hc
  rcases hc with hc | hc
  · rw [List.eq_of_mem_replicate hc]
    rfl
  · exact Nat.isDigit_of_mem_toDigits (by decide) (by decide) hc

lemma length_padded (hw : 0 < w) (hn : n < 10 ^ w) : (padded w n).toList.length = w := by
  have hlength := (Nat.length_toDigits_le_iff (b := 10) (by decide) hw).2 hn
  rw [toList_padded, List.length_append, List.length_replicate]
  omega

lemma padded_ne_nil (w n : Nat) : (padded w n).toList ≠ [] := by
  rw [toList_padded]
  exact List.append_ne_nil_of_right_ne_nil _ Nat.toDigits_ne_nil

/-- No digit comes next. -/
def EndsNumber (rest : List Char) : Prop := ∀ c ∈ rest.head?, c.isDigit = false

lemma takeWhile_digits (hds : ∀ c ∈ ds, c.isDigit = true) (hrest : EndsNumber rest) :
    (ds ++ rest).takeWhile Char.isDigit = ds := by
  rw [List.takeWhile_append_of_pos hds]
  cases rest with
  | nil => simp
  | cons c rest => simp [hrest c rfl]

lemma EndsNumber.take (h : EndsNumber rest) (k : Nat) : EndsNumber (rest.take k) := by
  intro c hc
  cases k with
  | zero => exact nomatch hc
  | succ k =>
    cases rest with
    | nil => exact nomatch hc
    | cons d rest => exact h c hc

/-- A number is read up to where no digit comes next. -/
lemma number_digits (hds : ∀ c ∈ ds, c.isDigit = true) (hne : ds ≠ []) (hrest : EndsNumber rest)
    {width : Option Nat} (hwidth : ∀ w ∈ width, ds.length ≤ w) :
    number width (ds ++ rest) = .ok (digitsValue ds, rest) := by
  obtain ⟨c, cs, rfl⟩ := List.exists_cons_of_ne_nil hne
  have hc : c.isDigit = true := hds c (.head _)
  cases width with
  | none =>
    have hend := takeWhile_digits hds hrest
    rw [List.cons_append] at hend ⊢
    simp only [number, hc, if_true, hend]
    rw [← List.cons_append, List.drop_left]
  | some w =>
    have hreach : (c :: cs ++ rest).take w = c :: cs ++ rest.take (w - (c :: cs).length) := by
      rw [List.take_append, List.take_of_length_le (hwidth w rfl)]
    have hend := takeWhile_digits hds (hrest.take (w - (c :: cs).length))
    rw [← hreach] at hend
    rw [List.cons_append] at hend ⊢
    simp only [number, hc, if_true, hend]
    rw [← List.cons_append, List.drop_left]

lemma number_padded (w n : Nat) (hrest : EndsNumber rest) (width : Option Nat)
    (hwidth : ∀ k ∈ width, (padded w n).toList.length ≤ k) :
    number width ((padded w n).toList ++ rest) = .ok (n, rest) := by
  rw [number_digits (isDigit_padded w n) (padded_ne_nil w n) hrest hwidth, digitsValue_padded]

/-! ### Parts -/

lemma endsNumber_cons {c : Char} (hc : c.isDigit = false) (rest : List Char) :
    EndsNumber (c :: rest) := by
  intro d hd
  rwa [← Option.some.inj hd]

/-- No white space stands in front. -/
lemma dropBlank_cons {c : Char} (hc : Text.isBlank c = false) (rest : List Char) :
    Text.dropBlank (c :: rest) = c :: rest := by
  rw [Text.dropBlank, List.dropWhile_cons_of_neg (by simp [hc])]

lemma isBlank_of_isDigit {c : Char} (hc : c.isDigit = true) : Text.isBlank c = false := by
  simp only [Char.isDigit, Bool.and_eq_true, decide_eq_true_eq, UInt32.le_iff_toNat_le] at hc
  have hc' : 48 ≤ c.toNat ∧ c.toNat ≤ 57 := hc
  simp only [Text.isBlank, Bool.or_eq_false_iff, Bool.and_eq_false_iff, decide_eq_false_iff_not,
    beq_eq_false_iff_ne]
  omega

lemma dropBlank_digits (hds : ∀ c ∈ ds, c.isDigit = true) (hne : ds ≠ []) :
    Text.dropBlank (ds ++ rest) = ds ++ rest := by
  obtain ⟨c, cs, rfl⟩ := List.exists_cons_of_ne_nil hne
  exact dropBlank_cons (isBlank_of_isDigit (hds c (.head _))) _

lemma part_padded (low high : Nat) (hlow : low ≤ n) (hhigh : n ≤ high) (hn : n < 100)
    (hrest : EndsNumber rest) :
    part low high ((padded 2 n).toList ++ rest) = .ok (n, rest) := by
  have hlength : (padded 2 n).toList.length = 2 := length_padded (by decide) hn
  have hnumber := number_padded 2 n hrest (some 2)
    fun k hk => by rw [hlength, Option.some.inj hk]
  rw [part, dropBlank_digits (isDigit_padded 2 n) (padded_ne_nil 2 n), hnumber]
  simp only [bind, Except.bind]
  rw [if_pos ⟨hlow, hhigh⟩]

lemma literal_cons {c : Char} (hc : Text.isBlank c = false) (rest : List Char) :
    literal c (c :: rest) = .ok rest := by
  rw [literal, dropBlank_cons hc]
  exact if_pos rfl

/-- A year is read up to the hyphen behind it. -/
lemma year_yearText {y : Int} (hy : yearRange.1 ≤ y ∧ y ≤ yearRange.2) (rest : List Char) :
    year ((yearText y).toList ++ '-' :: rest) = .ok (y, '-' :: rest) := by
  have hhyphen : EndsNumber ('-' :: rest) := endsNumber_cons rfl rest
  have hbounds : -2147483648 ≤ y ∧ y ≤ 2147483647 := by
    have hlow : (-262143 : Int) ≤ y := hy.1
    have hhigh : y ≤ 262142 := hy.2
    omega
  have hsigned : ∀ n : Nat, number none ((padded 4 n).toList ++ '-' :: rest) =
      .ok (n, '-' :: rest) := fun n => number_padded 4 n hhyphen none fun k hk => nomatch hk
  unfold yearText
  split_ifs with hfour hpos
  · -- four digits, the first of which is no sign
    have hlength : (padded 4 y.toNat).toList.length = 4 := length_padded (by decide) (by omega)
    have hnumber := number_padded 4 y.toNat hhyphen (some 4)
      fun k hk => by rw [hlength, Option.some.inj hk]
    obtain ⟨c, cs, hcs⟩ := List.exists_cons_of_ne_nil (padded_ne_nil 4 y.toNat)
    have hc : c.isDigit = true := isDigit_padded 4 y.toNat c (by rw [hcs]; exact .head _)
    rw [hcs, List.cons_append] at hnumber ⊢
    rw [year, dropBlank_cons (isBlank_of_isDigit hc)]
    split
    · next hminus =>
      obtain ⟨rfl, -⟩ := List.cons.inj hminus
      exact nomatch hc
    · next hplus =>
      obtain ⟨rfl, -⟩ := List.cons.inj hplus
      exact nomatch hc
    · have hcast : ((y.toNat : Nat) : Int) = y := Int.toNat_of_nonneg hfour.1
      simp only [hnumber, bind, Except.bind, pure, Except.pure, hcast]
      rw [if_pos hbounds]
  · have hcast : ((y.toNat : Nat) : Int) = y := Int.toNat_of_nonneg hpos
    rw [String.toList_append]
    change year ('+' :: ((padded 4 y.toNat).toList ++ '-' :: rest)) = _
    rw [year, dropBlank_cons (by decide)]
    simp only [hsigned, bind, Except.bind, pure, Except.pure, hcast]
    rw [if_pos hbounds]
  · have hcast : -((y.natAbs : Nat) : Int) = y := by omega
    rw [String.toList_append]
    change year ('-' :: ((padded 4 y.natAbs).toList ++ '-' :: rest)) = _
    rw [year, dropBlank_cons (by decide)]
    simp only [hsigned, bind, Except.bind, pure, Except.pure, hcast]
    rw [if_pos hbounds]

/-- The fraction of a second is read back, up to the offset. -/
lemma fraction_fractionText (hn : n < 1000000000) (rest : List Char) :
    fraction ((fractionText n).toList ++ 'Z' :: rest) = .ok (n, 'Z' :: rest) := by
  have hoffset : EndsNumber ('Z' :: rest) := endsNumber_cons rfl rest
  -- so many digits of the fraction are written
  have hdigits : ∀ k m, 0 < k → k ≤ 9 → m < 10 ^ k → m * 10 ^ (9 - k) = n →
      fraction ('.' :: ((padded k m).toList ++ 'Z' :: rest)) = .ok (n, 'Z' :: rest) := by
    intro k m hk hk9 hm hvalue
    have hlength : (padded k m).toList.length = k := length_padded hk hm
    have hnumber := number_padded k m hoffset (some 9)
      fun j hj => by rw [hlength, ← Option.some.inj hj]; exact hk9
    have hcount : ((padded k m).toList ++ 'Z' :: rest).length - ('Z' :: rest).length = k := by
      rw [List.length_append, hlength, Nat.add_sub_cancel]
    have hpower : m * Nat.pow 10 (9 - k) = n := hvalue
    simp only [fraction, hnumber, bind, Except.bind, hcount, hpower]
    rfl
  unfold fractionText
  split_ifs with hzero hmilli hmicro
  · subst hzero
    rfl
  · rw [String.toList_append]
    exact hdigits 3 (n / 1000000) (by decide) (by decide) (by omega) (by omega)
  · rw [String.toList_append]
    exact hdigits 6 (n / 1000) (by decide) (by decide) (by omega) (by omega)
  · rw [String.toList_append]
    exact hdigits 9 n (by decide) (by decide) hn (by omega)

/-! ### Timestamps -/

/-- The seconds of a day, as they are written: in a leap second there is one more. -/
def writtenSecond (t : Timestamp) (inDay : Nat) : Nat :=
  inDay % 60 + (if 1000000000 ≤ t.nanos then 1 else 0)

/-- The nanoseconds as they are written. -/
def writtenNanos (t : Timestamp) : Nat :=
  if 1000000000 ≤ t.nanos then t.nanos - 1000000000 else t.nanos

lemma toList_text (t : Timestamp) {days : Int} {inDay : Nat}
    (hdays : t.seconds.fdiv 86400 = days) (hday : (t.seconds - days * 86400).toNat = inDay) :
    t.text.toList = (yearText (dateOfDays days).1).toList ++ '-' ::
      ((padded 2 (dateOfDays days).2.1).toList ++ '-' ::
      ((padded 2 (dateOfDays days).2.2).toList ++ 'T' ::
      ((padded 2 (inDay / 3600)).toList ++ ':' ::
      ((padded 2 (inDay / 60 % 60)).toList ++ ':' ::
      ((padded 2 (writtenSecond t inDay)).toList ++
      ((fractionText (writtenNanos t)).toList ++ ['Z'])))))) := by
  subst hdays hday
  simp only [text, String.toList_append, writtenSecond, writtenNanos, List.append_assoc,
    String.reduceToList, List.cons_append, List.nil_append]

/-- A second is read back with the nanoseconds. -/
lemma written_second (hnanos : t.nanos < 2000000000) (inDay : Nat)
    (hleap : 1000000000 ≤ t.nanos → inDay % 60 = 59) :
    writtenSecond t inDay ≤ 60 ∧ writtenNanos t < 1000000000 ∧
      (if writtenSecond t inDay = 60 then ((59, 1000000000 + writtenNanos t) : Nat × Nat)
        else (writtenSecond t inDay, writtenNanos t)) = (inDay % 60, t.nanos) := by
  unfold writtenSecond writtenNanos
  split_ifs with hle hsixty hsixty
  · have := hleap hle
    refine ⟨by omega, by omega, Prod.ext this.symm ?_⟩
    show 1000000000 + (t.nanos - 1000000000) = t.nanos
    omega
  · have := hleap hle
    omega
  · omega
  · exact ⟨by omega, by omega, rfl⟩

/-- A timestamp that is supported is read back. -/
theorem parse_text (h : t.Supported) : parse t.text = .ok t := by
  obtain ⟨hyear, hnanos, hleap⟩ := h
  set days := t.seconds.fdiv 86400 with hdays
  set inDay := (t.seconds - days * 86400).toNat with hinDay
  have hseconds : t.seconds = days * 86400 + inDay ∧ inDay < 86400 := by
    rw [Int.fdiv_eq_ediv_of_nonneg _ (by decide)] at hdays
    omega
  obtain ⟨hmonth, hday⟩ := isDate_dateOfDays days
  have hdayLe : (dateOfDays days).2.2 ≤ 31 :=
    hday.2.trans (by unfold daysInMonth; split_ifs <;> omega)
  obtain ⟨hsecond, hnano, hwritten⟩ := written_second hnanos inDay fun hle => by
    have := hleap hle
    omega
  have hyearText := year_yearText hyear
  have hmonthText := fun r => part_padded 1 12 hmonth.1 hmonth.2 (by omega)
    (endsNumber_cons (c := '-') rfl r)
  have hdayText := fun r => part_padded 1 31 hday.1 hdayLe (by omega)
    (endsNumber_cons (c := 'T') rfl r)
  have hhourText := fun r => part_padded 0 23 (n := inDay / 3600) (by omega) (by omega) (by omega)
    (endsNumber_cons (c := ':') rfl r)
  have hminuteText := fun r => part_padded 0 59 (n := inDay / 60 % 60) (by omega) (by omega)
    (by omega) (endsNumber_cons (c := ':') rfl r)
  have hend : EndsNumber ((fractionText (writtenNanos t)).toList ++ ['Z']) := by
    unfold fractionText
    split_ifs
    · exact endsNumber_cons rfl _
    all_goals
      rw [String.toList_append]
      exact endsNumber_cons rfl _
  have hsecondText := part_padded 0 60 (n := writtenSecond t inDay) (by omega) hsecond (by omega)
    hend
  have hfraction := fraction_fractionText hnano []
  have hoffset : offset (Text.dropBlank ['Z']) = .ok (0, []) := rfl
  have hhyphen := literal_cons (c := '-') (by decide)
  have hcolon := literal_cons (c := ':') (by decide)
  rw [parse, toList_text t hdays.symm hinDay.symm]
  simp only [hyearText, hhyphen, hmonthText, hdayText, hhourText, hcolon, hminuteText, hsecondText,
    hfraction, hoffset, bind, Except.bind, true_or, or_true, if_true]
  -- the checks are passed, because the days that were read are those that were written
  have hinstant : days * 86400 +
      (((inDay / 3600 * 60 + inDay / 60 % 60) * 60 + inDay % 60 : Nat) : Int) - 0 = t.seconds := by
    omega
  rw [hwritten, daysOfDate_dateOfDays, hinstant, ← hdays]
  rw [if_neg (fun hne => hne rfl), if_neg (by omega), if_neg (by decide), if_neg (by omega)]

/-! ### What can be read -/

lemma digitsValue_lt (hds : ∀ c ∈ ds, c.isDigit = true) : digitsValue ds < 10 ^ ds.length := by
  induction ds using List.reverseRecOn with
  | nil => decide
  | append_singleton ds c ih =>
    have hc : c.isDigit = true := hds c (by simp)
    simp only [Char.isDigit, Bool.and_eq_true, decide_eq_true_eq, UInt32.le_iff_toNat_le] at hc
    have hc' : c.toNat ≤ 57 := hc.2
    have hbefore := ih fun d hd => hds d (List.mem_append_left _ hd)
    have hvalue : digitsValue (ds ++ [c]) = digitsValue ds * 10 + (c.toNat - 48) := by
      simp [digitsValue, List.foldl_append]
    rw [hvalue, List.length_append, List.length_singleton, Nat.pow_succ]
    omega

/-- A fraction is less than a second. -/
lemma fraction_lt {s : List Char} (h : fraction s = .ok (n, rest)) : n < 1000000000 := by
  unfold fraction at h
  split at h
  · next s =>
    obtain ⟨⟨m, r⟩, hnumber, hpure⟩ := bind_eq_ok_iff.1 h
    obtain ⟨rfl, -⟩ := Prod.mk.inj (Except.ok.inj hpure)
    unfold number at hnumber
    split at hnumber
    · exact nomatch hnumber
    · next c cs =>
      split_ifs at hnumber
      obtain ⟨rfl, rfl⟩ := Prod.mk.inj (Except.ok.inj hnumber)
      set ds := ((c :: cs).take 9).takeWhile Char.isDigit with hds
      have hlt : digitsValue ds < 10 ^ ds.length := by
        refine digitsValue_lt fun d hd => ?_
        rw [hds] at hd
        exact List.mem_takeWhile_imp hd
      have hnine : ds.length ≤ 9 := by
        rw [hds]
        exact (List.takeWhile_prefix _).length_le.trans (List.length_take_le _ _)
      have hlength : ds.length ≤ (c :: cs).length := by
        rw [hds]
        exact (List.takeWhile_prefix _).length_le.trans (List.length_take_le' _ _)
      have hcount : (c :: cs).length - ((c :: cs).drop ds.length).length = ds.length := by
        rw [List.length_drop]
        omega
      rw [hcount]
      calc digitsValue ds * Nat.pow 10 (9 - ds.length)
          < 10 ^ ds.length * 10 ^ (9 - ds.length) :=
            Nat.mul_lt_mul_of_pos_right hlt (Nat.pow_pos (by decide))
        _ = 10 ^ 9 := by rw [← Nat.pow_add, Nat.add_sub_cancel' hnine]
  · obtain ⟨rfl, -⟩ := Prod.mk.inj (Except.ok.inj h)
    decide

/-- Local time differs from universal time by whole minutes. -/
lemma offset_minutes {s : List Char} {off : Int} (h : offset s = .ok (off, rest)) :
    off % 60 = 0 := by
  unfold offset at h
  split_ifs at h
  · rw [← (Prod.mk.inj (Except.ok.inj h)).1]
    rfl
  · split at h
    · exact nomatch h
    · split_ifs at h
      · rw [← (Prod.mk.inj (Except.ok.inj h)).1]
        rfl
      all_goals
        obtain ⟨⟨h1, h2, r⟩, -, hrest⟩ := bind_eq_ok_iff.1 h
        obtain ⟨⟨m1, m2, r⟩, -, hlast⟩ := bind_eq_ok_iff.1 hrest
        simp only at hlast
        split_ifs at hlast
        rw [← (Prod.mk.inj (Except.ok.inj hlast)).1]
        omega

/-- Whatever is read is supported. -/
theorem supported_of_parse {text : String} (h : parse text = .ok t) : t.Supported := by
  unfold parse at h
  -- only the fraction, the offset and the last check matter
  obtain ⟨⟨y, s1⟩, -, h1⟩ := bind_eq_ok_iff.1 h
  obtain ⟨s2, -, h2⟩ := bind_eq_ok_iff.1 h1
  obtain ⟨⟨m, s3⟩, -, h3⟩ := bind_eq_ok_iff.1 h2
  obtain ⟨s4, -, h4⟩ := bind_eq_ok_iff.1 h3
  obtain ⟨⟨d, s5⟩, -, h5⟩ := bind_eq_ok_iff.1 h4
  clear h h1 h2 h3 h4
  simp only at h5
  split at h5
  · exact nomatch h5
  · next c s =>
    by_cases hletter : c = 't' ∨ c = 'T' ∨ c = ' '
    · rw [if_pos hletter] at h5
      obtain ⟨s6, -, h6⟩ := bind_eq_ok_iff.1 h5
      obtain ⟨⟨hour, s7⟩, -, h7⟩ := bind_eq_ok_iff.1 h6
      obtain ⟨s8, -, h8⟩ := bind_eq_ok_iff.1 h7
      obtain ⟨⟨minute, s9⟩, -, h9⟩ := bind_eq_ok_iff.1 h8
      obtain ⟨s10, -, h10⟩ := bind_eq_ok_iff.1 h9
      obtain ⟨⟨second, s11⟩, -, h11⟩ := bind_eq_ok_iff.1 h10
      obtain ⟨⟨frac, s12⟩, hfraction, h12⟩ := bind_eq_ok_iff.1 h11
      obtain ⟨⟨off, s13⟩, hoffset, h13⟩ := bind_eq_ok_iff.1 h12
      clear h5 h6 h7 h8 h9 h10 h11 h12
      have hfrac := fraction_lt hfraction
      have hoff := offset_minutes hoffset
      simp only at h13
      split_ifs at h13 with htext hdate hfar hleap himpossible himpossible
      · -- in a leap second the second that is kept is the last one of its minute
        obtain rfl := Except.ok.inj h13
        rw [not_or, Int.not_lt, Int.not_lt] at himpossible
        exact ⟨himpossible, show 1000000000 + frac < 2000000000 by omega,
          fun _ => by simp only; omega⟩
      · obtain rfl := Except.ok.inj h13
        rw [not_or, Int.not_lt, Int.not_lt] at himpossible
        exact ⟨himpossible, show frac < 2000000000 by omega,
          fun hle => by simp only at hle; omega⟩
    · rw [if_neg hletter] at h5
      exact nomatch h5

end PackageStaging.Timestamp
