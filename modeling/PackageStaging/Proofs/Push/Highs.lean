/-
# Strict maxima

The numbers of a list that are greater than zero and than all numbers before them.  They are what is
left when each number is compared with the greatest one so far (`Binary64.IsPeak.exceeds_iff`).
-/
import Mathlib.Data.List.Induction
import Mathlib.Tactic.Lemma
import Mathlib.Tactic.SplitIfs
import PackageStaging.Push.Coordinator

namespace PackageStaging

namespace Binary64

variable {f x : Binary64} {before l : List Binary64}

/-- The number is greater than zero and than all of these. -/
def Exceeds (x : Binary64) (before : List Binary64) : Prop := zero < x ∧ ∀ y ∈ before, y < x

instance : Decidable (x.Exceeds before) := inferInstanceAs (Decidable (_ ∧ _))

/-- The numbers of a list that are greater than zero and than all numbers before them, in the list
and in `before`. -/
def recordsAfter (before : List Binary64) : List Binary64 → List Binary64
  | [] => []
  | x :: l =>
    if x.Exceeds before then x :: recordsAfter (before ++ [x]) l
    else recordsAfter (before ++ [x]) l

/-- The strict maxima of a list from left to right, above zero. -/
def records (l : List Binary64) : List Binary64 := recordsAfter [] l

/-- The greatest of zero and the numbers of a list. -/
def IsPeak (f : Binary64) (l : List Binary64) : Prop := (f = zero ∨ f ∈ l) ∧ ∀ x ∈ l, x ≤ f

lemma recordsAfter_concat (before l : List Binary64) (x : Binary64) :
    recordsAfter before (l ++ [x]) =
      recordsAfter before l ++ if x.Exceeds (before ++ l) then [x] else [] := by
  induction l generalizing before with
  | nil => simp [recordsAfter]
  | cons y l ih =>
    simp only [List.cons_append, recordsAfter, ih, List.append_assoc, List.nil_append]
    split_ifs <;> simp

lemma mem_of_mem_recordsAfter (h : x ∈ recordsAfter before l) : x ∈ l ∧ x.Exceeds before := by
  induction l generalizing before with
  | nil => exact nomatch h
  | cons y l ih =>
    have hlater : x ∈ recordsAfter (before ++ [y]) l → x ∈ y :: l ∧ x.Exceeds before := by
      intro hx
      obtain ⟨hmem, hzero, hall⟩ := ih hx
      exact ⟨.tail _ hmem, hzero, fun z hz => hall z (List.mem_append_left _ hz)⟩
    rw [recordsAfter] at h
    split_ifs at h with hy
    · rcases List.mem_cons.1 h with rfl | h
      · exact ⟨.head _, hy⟩
      · exact hlater h
    · exact hlater h

lemma recordsAfter_ascend (before l : List Binary64) :
    (recordsAfter before l).Pairwise (· < ·) := by
  induction l generalizing before with
  | nil => exact .nil
  | cons y l ih =>
    rw [recordsAfter]
    split_ifs
    · refine List.pairwise_cons.2 ⟨fun x hx => ?_, ih _⟩
      exact (mem_of_mem_recordsAfter hx).2.2 y (by simp)
    · exact ih _

lemma isPeak_nil : IsPeak zero [] := ⟨.inl rfl, by simp⟩

/-- The greatest one so far stands for all of them. -/
lemma IsPeak.exceeds_iff (h : IsPeak f l) : x.Exceeds l ↔ f < x := by
  obtain ⟨hf, hle⟩ := h
  constructor
  · rintro ⟨hzero, hall⟩
    rcases hf with rfl | hf
    · exact hzero
    · exact hall f hf
  · intro hlt
    exact ⟨Nat.lt_of_le_of_lt (Nat.zero_le _) hlt, fun y hy => Nat.lt_of_le_of_lt (hle y hy) hlt⟩

lemma IsPeak.concat (h : IsPeak f l) (x : Binary64) :
    IsPeak (if f < x then x else f) (l ++ [x]) := by
  obtain ⟨hf, hle⟩ := h
  split_ifs with hlt
  · refine ⟨.inr (by simp), fun y hy => ?_⟩
    rcases List.mem_append.1 hy with hy | hy
    · exact Nat.le_trans (hle y hy) (Nat.le_of_lt hlt)
    · rw [List.mem_singleton.1 hy]
      exact Nat.le_refl _
  · refine ⟨hf.imp_right (List.mem_append_left _), fun y hy => ?_⟩
    rcases List.mem_append.1 hy with hy | hy
    · exact hle y hy
    · rw [List.mem_singleton.1 hy]
      exact Nat.le_of_not_lt hlt

end Binary64

lemma Coordinator.fraction_le_one (sent total : Nat) : fraction sent total ≤ .one := by
  unfold fraction
  dsimp only
  split_ifs with _ hlt
  · exact Nat.le_refl _
  · exact Nat.le_of_lt hlt
  · exact Nat.le_refl _

/-! ### Everything -/

namespace Binary64

variable {f x : Binary64} {before l : List Binary64}

lemma IsPeak.unique {g : Binary64} (hf : IsPeak f l) (hg : IsPeak g l) : f = g := by
  have hle : ∀ {f g : Binary64}, IsPeak f l → IsPeak g l → f.bits ≤ g.bits := by
    rintro f g ⟨rfl | hf, -⟩ ⟨-, hg⟩
    · exact Nat.zero_le _
    · exact hg f hf
  have hbits : f.bits = g.bits := Nat.le_antisymm (hle hf hg) (hle hg hf)
  cases f
  cases g
  exact congrArg _ hbits

lemma exists_isPeak (l : List Binary64) : ∃ f, IsPeak f l := by
  induction l using List.reverseRecOn with
  | nil => exact ⟨zero, isPeak_nil⟩
  | append_singleton l x ih =>
    obtain ⟨f, hf⟩ := ih
    exact ⟨_, hf.concat x⟩

/-- The last strict maximum is the greatest number of all. -/
lemma IsPeak.getLast?_records (h : IsPeak f l) :
    (records l).getLast? = if f = zero then none else some f := by
  induction l using List.reverseRecOn generalizing f with
  | nil =>
    rw [h.unique isPeak_nil, if_pos rfl]
    rfl
  | append_singleton l x ih =>
    obtain ⟨g, hg⟩ := exists_isPeak l
    rw [h.unique (hg.concat x), records, recordsAfter_concat, List.nil_append,
      if_congr hg.exceeds_iff rfl rfl]
    split_ifs with hlt hzero hzero
    · rw [hzero] at hlt
      exact absurd hlt (Nat.not_lt_zero _)
    · exact List.getLast?_concat
    · rw [List.append_nil]
      exact (ih hg).trans (if_pos hzero)
    · rw [List.append_nil]
      exact (ih hg).trans (if_neg hzero)

/-- A positive number divided by itself. -/
lemma nearest_self {n : Nat} (hn : 0 < n) : nearest n n = one := by
  have hlog : floorLog2 n n = 0 := by
    simp [floorLog2]
  have hround : roundDiv (n * Nat.pow 2 52) n = Nat.pow 2 52 := by
    simp only [roundDiv, Nat.mul_div_cancel_left _ hn, Nat.mul_mod_right]
    exact if_pos hn
  have hunit : max ((0 : Int) - 52) (-1074) = -52 := by decide
  have hpositive : ¬(n = 0 ∨ n = 0) := by omega
  have hsmall : ¬(0 : Int) ≤ -52 := by decide
  have hexponent : (-(-52 : Int)).toNat = 52 := rfl
  simp only [nearest, hlog, if_neg hpositive, hunit, if_neg hsmall, hexponent, hround]
  decide +kernel

/-- The pattern of a positive whole number is not that of zero. -/
lemma ofNat_ne_zero {n : Nat} (hn : 0 < n) : ofNat n ≠ zero := by
  have hlog : -1 ≤ floorLog2 n 1 := by
    have hone : Nat.log2 1 = 0 := by decide
    simp only [floorLog2, hone]
    split_ifs <;> omega
  have hpositive : ¬(n = 0 ∨ 1 = 0) := by omega
  intro hzero
  have hbits := congrArg bits hzero
  simp only [ofNat, nearest, if_neg hpositive] at hbits
  split_ifs at hbits <;> simp only [infinity, zero, fractionRange] at hbits <;> omega

lemma toRatio_pos (hx : x ≠ zero) : 0 < x.toRatio.1 ∧ 0 < x.toRatio.2 := by
  have hbits : x.bits ≠ 0 := fun h => hx (by cases x; exact congrArg _ h)
  have hcount : 0 < x.decompose.1 := by
    simp only [decompose]
    split_ifs with h
    · simp only [fractionRange] at h ⊢
      omega
    · simp only [fractionRange]
      omega
  have hpow : ∀ k, 0 < Nat.pow 2 k := fun k => Nat.pow_pos (by decide)
  simp only [toRatio]
  split_ifs
  · exact ⟨Nat.mul_pos hcount (hpow _), Nat.one_pos⟩
  · exact ⟨hcount, hpow _⟩

lemma div_self (hx : x ≠ zero) : x / x = one := by
  obtain ⟨hnum, hden⟩ := toRatio_pos hx
  change nearest (x.toRatio.1 * x.toRatio.2) (x.toRatio.2 * x.toRatio.1) = one
  rw [Nat.mul_comm x.toRatio.2]
  exact nearest_self (Nat.mul_pos hnum hden)

end Binary64

/-- When everything has been sent the fraction is one. -/
lemma Coordinator.fraction_self (total : Nat) : fraction total total = .one := by
  unfold fraction
  split_ifs with h
  · rfl
  · dsimp only
    rw [Binary64.div_self (Binary64.ofNat_ne_zero (Nat.pos_of_ne_zero h))]
    exact if_neg (Nat.lt_irrefl _)

end PackageStaging
