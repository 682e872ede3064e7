/-
# Looking up keys

`List.lookup` finds the first entry of a key.  The entries of other keys do not matter.
-/
namespace PackageStaging

variable {κ α : Type} [BEq κ] [LawfulBEq κ] [DecidableEq κ]

theorem lookup_cons_ite (k : κ) (e : κ × α) (l : List (κ × α)) :
    (e :: l).lookup k = if e.1 = k then some e.2 else l.lookup k := by
  rw [List.lookup_cons]
  by_cases h : e.1 = k
  · rw [h, beq_self_eq_true, if_pos rfl]
  · rw [beq_false_of_ne (Ne.symm h), if_neg h]

/-- Without the entries of a key, that key has no value, and all others have the same. -/
theorem lookup_filter_ne (k k' : κ) (l : List (κ × α)) :
    (l.filter fun e => e.1 ≠ k).lookup k' = if k = k' then none else l.lookup k' := by
  induction l with
  | nil => rw [List.filter_nil, List.lookup_nil, ite_self]
  | cons e l ih =>
    by_cases he : e.1 = k
    · rw [List.filter_cons_of_neg (by simp [he]), ih, lookup_cons_ite, he]
      split <;> rfl
    · rw [List.filter_cons_of_pos (by simp [he]), lookup_cons_ite, lookup_cons_ite, ih]
      by_cases hk : k = k'
      · rw [if_pos hk, if_pos hk, if_neg (hk ▸ he)]
      · rw [if_neg hk, if_neg hk]

end PackageStaging
