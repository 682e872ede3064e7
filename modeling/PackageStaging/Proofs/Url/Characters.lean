/-
# The characters of addresses

What is encoded for a part of an address holds characters of ASCII that show (`IsVisible`), and none
that ends the part.  From a text of such characters nothing is taken off at its ends, so that it is
read as it is (`cleaned_eq_self`, `trim_eq_self`).
-/
import Mathlib.Tactic.Lemma
import PackageStaging.Proofs.Text.Utf8
import PackageStaging.Url

namespace PackageStaging.Url

variable {s : List Char} {c : Char}

/-- Characters of ASCII that show. -/
def IsVisible (c : Char) : Prop := 0x20 < c.toNat ∧ c.toNat < 0x7F

instance : DecidablePred IsVisible := fun _ => inferInstanceAs (Decidable (_ ∧ _))

/-- Characters that show and do not end an authority. -/
def InAuthority (c : Char) : Prop := IsVisible c ∧ endsAuthority true c = false

instance : DecidablePred InAuthority := fun _ => inferInstanceAs (Decidable (_ ∧ _))

/-! ### Characters that stand for themselves -/

lemma isVisible_of_isPlain (h : isPlain c = true) (hspace : c ≠ ' ') : IsVisible c := by
  simp only [isPlain, Bool.and_eq_true, decide_eq_true_eq] at h
  have hne : c.toNat ≠ 0x20 := fun heq => hspace (Char.toNat_inj.1 heq)
  exact ⟨by omega, h.2⟩

lemma isVisible_of_inFragment (h : inFragment c = true) : IsVisible c := by
  simp only [inFragment, Bool.and_eq_true, decide_eq_true_eq] at h
  exact isVisible_of_isPlain h.1.1.1.1.1 h.1.1.1.1.2

lemma isVisible_of_inSpecialQuery (h : inSpecialQuery c = true) : IsVisible c := by
  simp only [inSpecialQuery, inQuery, Bool.and_eq_true, decide_eq_true_eq] at h
  exact isVisible_of_isPlain h.1.1.1.1.1.1 h.1.1.1.1.1.2

lemma isVisible_of_inPath (h : inPath c = true) : IsVisible c := by
  simp only [inPath, Bool.and_eq_true] at h
  exact isVisible_of_inFragment h.1.1.1.1

lemma endsPath_of_inPath (h : inPath c = true) : endsPath c = false := by
  simp only [inPath, Bool.and_eq_true, decide_eq_true_eq] at h
  simp [endsPath, h.1.1.1.2, h.1.1.2]

/-- What may stand in credentials does not end the user name either. -/
lemma inAuthority_of_inCredentials (h : inCredentials c = true) : InAuthority c ∧ c ≠ ':' := by
  have hpath : inPath c = true := by
    simp only [inCredentials, Bool.and_eq_true] at h
    exact h.1.1.1.1.1.1.1.1.1.1
  have hvisible := isVisible_of_inPath hpath
  exact Utf8.forall_ascii (P := fun c => inCredentials c = true → InAuthority c ∧ c ≠ ':')
    (by decide +kernel) (by have := hvisible.2; omega) h

/-! ### Texts that are read as they are -/

lemma isVisible_not_idle (h : IsVisible c) : decide (c.toNat ≤ 0x20) = false :=
  decide_eq_false (Nat.not_le.2 h.1)

lemma dropWhile_idle (h : ∀ c ∈ s, IsVisible c) :
    s.dropWhile (fun c => decide (c.toNat ≤ 0x20)) = s := by
  cases s with
  | nil => rfl
  | cons c s => rw [List.dropWhile_cons, isVisible_not_idle (h c (.head _))]; rfl

lemma cleaned_eq_self (h : ∀ c ∈ s, IsVisible c) : cleaned s = s := by
  have hreverse : ∀ c ∈ s.reverse, IsVisible c := fun c hc => h c (List.mem_reverse.1 hc)
  rw [cleaned]
  dsimp only
  rw [dropWhile_idle h, dropWhile_idle hreverse, List.reverse_reverse, List.filter_eq_self]
  intro c hc
  exact Utf8.forall_ascii
    (P := fun c => IsVisible c → (c ≠ '\t' && c ≠ '\n' && c ≠ '\r') = true)
    (by decide +kernel) (by have := (h c hc).2; omega) (h c hc)

lemma dropBlank_eq_self (h : ∀ c ∈ s, IsVisible c) : Text.dropBlank s = s := by
  cases s with
  | nil => rfl
  | cons c s =>
    have hc := h c (.head _)
    have hblank : Text.isBlank c = false :=
      Utf8.forall_ascii (P := fun c => IsVisible c → Text.isBlank c = false) (by decide +kernel)
        (by have := hc.2; omega) hc
    rw [Text.dropBlank, List.dropWhile_cons, hblank]
    rfl

lemma trim_eq_self (h : ∀ c ∈ s, IsVisible c) : Text.trim (String.ofList s) = String.ofList s := by
  have hreverse : ∀ c ∈ s.reverse, IsVisible c := fun c hc => h c (List.mem_reverse.1 hc)
  rw [Text.trim, String.toList_ofList, dropBlank_eq_self h, dropBlank_eq_self hreverse,
    List.reverse_reverse]

end PackageStaging.Url
