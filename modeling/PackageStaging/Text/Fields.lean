/-
# Texts cut at a separator

`fields` cuts a text at every occurrence of a separator and `joined` is its inverse on parts
that do not hold the separator: `fields_joined` and `joined_fields` say so.
-/
namespace PackageStaging.Text

/-- The parts between the separators; a text without one is a single part. -/
def fields (sep : Char) : List Char → List (List Char)
  | [] => [[]]
  | c :: rest =>
    if c = sep then [] :: fields sep rest
    else match fields sep rest with
      | [] => [[c]]
      | part :: parts => (c :: part) :: parts

/-- The parts in a row, with the separator between each two. -/
def joined (sep : Char) : List (List Char) → List Char
  | [] => []
  | [part] => part
  | part :: parts => part ++ sep :: joined sep parts

theorem fields_ne_nil (sep : Char) (s : List Char) : fields sep s ≠ [] := by
  cases s with
  | nil => simp [fields]
  | cons c rest =>
    simp only [fields]
    split
    · simp
    · split <;> simp

/-- Cutting loses nothing. -/
theorem joined_fields (sep : Char) (s : List Char) : joined sep (fields sep s) = s := by
  induction s with
  | nil => rfl
  | cons c rest ih =>
    simp only [fields]
    split
    · next h =>
      subst h
      cases hf : fields c rest with
      | nil => exact absurd hf (fields_ne_nil c rest)
      | cons part parts => rw [hf] at ih; simp [joined, ih]
    · split
      · next hf => exact absurd hf (fields_ne_nil sep rest)
      · next part parts hf =>
        rw [hf] at ih
        cases parts with
        | nil => simp only [joined] at ih ⊢; rw [ih]
        | cons p ps => simp only [joined, List.cons_append] at ih ⊢; rw [ih]

/-- A part without the separator is cut off whole. -/
theorem fields_append_cons (sep : Char) (part rest : List Char) (h : sep ∉ part) :
    fields sep (part ++ sep :: rest) = part :: fields sep rest := by
  induction part with
  | nil => simp [fields]
  | cons c part ih =>
    have hc : c ≠ sep := fun e => h (by simp [e])
    have ht : sep ∉ part := fun e => h (by simp [e])
    simp [fields, hc, ih ht]

/-- A text without the separator is one part. -/
theorem fields_eq_singleton (sep : Char) (part : List Char) (h : sep ∉ part) :
    fields sep part = [part] := by
  induction part with
  | nil => rfl
  | cons c part ih =>
    have hc : c ≠ sep := fun e => h (by simp [e])
    have ht : sep ∉ part := fun e => h (by simp [e])
    simp [fields, hc, ih ht]

/-- Parts without the separator are found again in the joined text. -/
theorem fields_joined (sep : Char) (parts : List (List Char)) (hne : parts ≠ [])
    (h : ∀ part ∈ parts, sep ∉ part) : fields sep (joined sep parts) = parts := by
  induction parts with
  | nil => exact absurd rfl hne
  | cons part parts ih =>
    cases parts with
    | nil => exact fields_eq_singleton sep part (h part (by simp))
    | cons p ps =>
      have hpart := h part (by simp)
      simp only [joined]
      rw [fields_append_cons sep part _ hpart, ih (by simp) fun q hq => h q (by simp [hq])]

/-- What is in the joined text is in a part, separators apart. -/
theorem mem_joined {sep c : Char} {parts : List (List Char)} (h : c ∈ joined sep parts) :
    c = sep ∨ ∃ part ∈ parts, c ∈ part := by
  induction parts with
  | nil => exact absurd h List.not_mem_nil
  | cons part parts ih =>
    cases parts with
    | nil => exact .inr ⟨part, .head _, h⟩
    | cons p ps =>
      rcases List.mem_append.1 h with h | h
      · exact .inr ⟨part, .head _, h⟩
      · rcases List.mem_cons.1 h with h | h
        · exact .inl h
        · exact (ih h).imp_right fun ⟨q, hq, hc⟩ => ⟨q, .tail _ hq, hc⟩

/-- No part holds the separator. -/
theorem not_mem_of_mem_fields (sep : Char) (s : List Char) :
    ∀ part ∈ fields sep s, sep ∉ part := by
  induction s with
  | nil => simp [fields]
  | cons c rest ih =>
    simp only [fields]
    split
    · intro part hp
      rcases List.mem_cons.1 hp with rfl | hp
      · simp
      · exact ih part hp
    · next hc =>
      split
      · simpa using fun e => hc e.symm
      · next q qs hf =>
        intro part hp
        rcases List.mem_cons.1 hp with rfl | hp
        · have := ih q (by simp [hf])
          simp [this, Ne.symm hc]
        · exact ih part (by simp [hf, hp])

/-- What is in a part is in the text. -/
theorem mem_of_mem_fields {sep c : Char} {s part : List Char} (hp : part ∈ fields sep s)
    (hc : c ∈ part) : c ∈ s := by
  induction s generalizing part with
  | nil =>
    rw [List.mem_singleton.1 hp] at hc
    exact absurd hc List.not_mem_nil
  | cons d rest ih =>
    simp only [fields] at hp
    split at hp
    · rcases List.mem_cons.1 hp with rfl | hp
      · exact absurd hc List.not_mem_nil
      · exact .tail _ (ih hp hc)
    · split at hp
      · rw [List.mem_singleton.1 hp, List.mem_singleton] at hc
        rw [hc]
        exact .head _
      · next q qs hf =>
        rcases List.mem_cons.1 hp with rfl | hp
        · rcases List.mem_cons.1 hc with rfl | hc
          · exact .head _
          · exact .tail _ (ih (by simp [hf]) hc)
        · exact .tail _ (ih (by simp [hf, hp]) hc)

end PackageStaging.Text
