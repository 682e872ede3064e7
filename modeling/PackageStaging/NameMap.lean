/-
# Finite maps from names

A map from names to values, kept as the list of its entries in ascending order of the names.
Names are ordered by code point, which is also the order of their UTF-8 bytes.  The order is
part of the type, so two maps with the same entries are equal.  `get?` is the view: each
operation is described by what it does to it (`get?_insert`, `get?_erase`, `get?_overlay`), and
`ext` says that a map is determined by it.
-/
import PackageStaging.Lookup

namespace PackageStaging

/-- A finite map from names to values. -/
structure NameMap (α : Type) where
  /-- The entries, in ascending order of their names. -/
  entries : List (String × α)
  /-- No name occurs twice, and the names ascend. -/
  ascending : entries.Pairwise fun a b => a.1 < b.1
deriving DecidableEq

namespace NameMap

variable {α : Type}

/-- The map without entries. -/
def empty : NameMap α := ⟨[], .nil⟩

instance : Inhabited (NameMap α) := ⟨empty⟩
instance : EmptyCollection (NameMap α) := ⟨empty⟩

/-- The names, in ascending order. -/
def names (m : NameMap α) : List String := m.entries.map (·.1)

/-- The number of entries. -/
def size (m : NameMap α) : Nat := m.entries.length

/-- Whether there is no entry. -/
def isEmpty (m : NameMap α) : Bool := m.entries.isEmpty

/-- The value of a name. -/
def get? (m : NameMap α) (name : String) : Option α := m.entries.lookup name

/-- Whether the name has a value. -/
def contains (m : NameMap α) (name : String) : Bool := (m.get? name).isSome

/-- Puts an entry at its place among ascending entries, over one of the same name. -/
def place (name : String) (value : α) : List (String × α) → List (String × α)
  | [] => [(name, value)]
  | (n, v) :: rest =>
    if name < n then (name, value) :: (n, v) :: rest
    else if n = name then (name, value) :: rest
    else (n, v) :: place name value rest

theorem mem_place {name : String} {value : α} {l : List (String × α)} {e : String × α}
    (h : e ∈ place name value l) : e = (name, value) ∨ e ∈ l := by
  induction l with
  | nil => simpa [place] using h
  | cons hd rest ih =>
    obtain ⟨n, v⟩ := hd
    simp only [place] at h
    split at h
    · simpa using h
    · split at h
      · rcases List.mem_cons.1 h with h | h
        · exact .inl h
        · exact .inr (List.mem_cons_of_mem _ h)
      · rcases List.mem_cons.1 h with h | h
        · exact .inr (by simp [h])
        · rcases ih h with h | h
          · exact .inl h
          · exact .inr (List.mem_cons_of_mem _ h)

theorem lt_of_not_lt_of_ne {a b : String} (h : ¬a < b) (hne : b ≠ a) : b < a := by
  refine Decidable.byContradiction fun hba => hne ?_
  exact String.le_antisymm (String.not_lt.1 h) (String.not_lt.1 hba)

theorem pairwise_place {name : String} {value : α} {l : List (String × α)}
    (h : l.Pairwise fun a b => a.1 < b.1) :
    (place name value l).Pairwise fun a b => a.1 < b.1 := by
  induction l with
  | nil => simp [place]
  | cons hd rest ih =>
    obtain ⟨n, v⟩ := hd
    obtain ⟨hhd, hrest⟩ := List.pairwise_cons.1 h
    simp only [place]
    split
    · next hlt =>
      refine List.pairwise_cons.2 ⟨fun e he => ?_, h⟩
      rcases List.mem_cons.1 he with rfl | he
      · exact hlt
      · exact String.lt_trans hlt (hhd e he)
    · next hnlt =>
      split
      · next heq => subst heq; exact List.pairwise_cons.2 ⟨hhd, hrest⟩
      · next hne =>
        refine List.pairwise_cons.2 ⟨fun e he => ?_, ih hrest⟩
        rcases mem_place he with rfl | he
        · exact lt_of_not_lt_of_ne hnlt hne
        · exact hhd e he

/-- The map with a value for the name, in place of the one it had. -/
def insert (m : NameMap α) (name : String) (value : α) : NameMap α :=
  ⟨place name value m.entries, pairwise_place m.ascending⟩

/-- The map without the name. -/
def erase (m : NameMap α) (name : String) : NameMap α :=
  ⟨m.entries.filter fun e => e.1 ≠ name, m.ascending.filter _⟩

/-- The map with the entries of a list put in one after the other: of several values for one
name the last stays. -/
def insertAll (m : NameMap α) (l : List (String × α)) : NameMap α :=
  l.foldl (fun m e => m.insert e.1 e.2) m

/-- The map of a list of entries, of which the last for each name counts. -/
def ofList (l : List (String × α)) : NameMap α := empty.insertAll l

/-- The entries of both maps; where both have the name, the value of `upper` counts. -/
def overlay (m upper : NameMap α) : NameMap α := m.insertAll upper.entries

/-- The value computed from the old one, at the name's place. -/
def alter (m : NameMap α) (name : String) (f : Option α → α) : NameMap α :=
  m.insert name (f (m.get? name))

/-! ### The view -/

@[simp] theorem get?_empty (name : String) : (empty : NameMap α).get? name = none := rfl

theorem lookup_eq_none {name : String} {l : List (String × α)} (h : ∀ e ∈ l, e.1 ≠ name) :
    l.lookup name = none :=
  List.lookup_eq_none_iff.2 fun e he => bne_iff_ne.2 (h e he).symm

theorem lookup_place (name other : String) (value : α) (l : List (String × α)) :
    (place name value l).lookup other = if name = other then some value else l.lookup other := by
  induction l with
  | nil => simp only [place, lookup_cons_ite]
  | cons hd rest ih =>
    obtain ⟨n, v⟩ := hd
    simp only [place]
    split
    · simp only [lookup_cons_ite]
    · split
      · next h =>
        subst h
        simp only [lookup_cons_ite]
        split <;> rfl
      · next h =>
        simp only [lookup_cons_ite, ih]
        by_cases h₁ : n = other
        · subst h₁; simp [Ne.symm h]
        · simp [h₁]

@[simp] theorem get?_insert (m : NameMap α) (name other : String) (value : α) :
    (m.insert name value).get? other = if name = other then some value else m.get? other :=
  lookup_place name other value m.entries

@[simp] theorem get?_erase (m : NameMap α) (name other : String) :
    (m.erase name).get? other = if name = other then none else m.get? other :=
  lookup_filter_ne name other m.entries

theorem lookup_eq_some_iff {l : List (String × α)} (h : l.Pairwise fun a b => a.1 < b.1)
    {name : String} {value : α} : l.lookup name = some value ↔ (name, value) ∈ l := by
  induction l with
  | nil => simp
  | cons hd rest ih =>
    obtain ⟨n, v⟩ := hd
    obtain ⟨hhd, hrest⟩ := List.pairwise_cons.1 h
    simp only [lookup_cons_ite, List.mem_cons, Prod.mk.injEq]
    by_cases hn : n = name
    · subst hn
      constructor
      · intro e
        rw [if_pos rfl, Option.some.injEq] at e
        exact .inl ⟨rfl, e.symm⟩
      · rintro (⟨-, rfl⟩ | hmem)
        · simp
        · exact absurd (hhd _ hmem) (String.lt_irrefl _)
    · rw [if_neg hn, ih hrest]
      exact ⟨.inr, fun h => h.resolve_left fun e => hn e.1.symm⟩

/-- A name has a value exactly if the entry is in the list. -/
theorem get?_eq_some_iff (m : NameMap α) {name : String} {value : α} :
    m.get? name = some value ↔ (name, value) ∈ m.entries :=
  lookup_eq_some_iff m.ascending

/-- A map is determined by the values of its names. -/
theorem ext {m m' : NameMap α} (h : ∀ name, m.get? name = m'.get? name) : m = m' := by
  obtain ⟨l, hl⟩ := m
  obtain ⟨l', hl'⟩ := m'
  suffices l = l' by subst this; rfl
  simp only [get?] at h
  induction l generalizing l' with
  | nil =>
    cases l' with
    | nil => rfl
    | cons hd rest =>
      have := h hd.1
      simp [lookup_cons_ite] at this
  | cons hd rest ih =>
    cases l' with
    | nil =>
      have := h hd.1
      simp [lookup_cons_ite] at this
    | cons hd' rest' =>
      obtain ⟨hhd, hrest⟩ := List.pairwise_cons.1 hl
      obtain ⟨hhd', hrest'⟩ := List.pairwise_cons.1 hl'
      have h₁ : hd ∈ hd' :: rest' := (lookup_eq_some_iff hl').1
        (by rw [← h]; exact (lookup_eq_some_iff hl).2 (by simp))
      have h₂ : hd' ∈ hd :: rest := (lookup_eq_some_iff hl).1
        (by rw [h]; exact (lookup_eq_some_iff hl').2 (by simp))
      have hhead : hd = hd' := by
        rcases List.mem_cons.1 h₁ with e | e
        · exact e
        · rcases List.mem_cons.1 h₂ with e' | e'
          · exact e'.symm
          · exact absurd (hhd _ e') (String.lt_asymm (hhd' _ e))
      subst hhead
      rw [ih hrest rest' hrest' fun name => ?_]
      have := h name
      simp only [lookup_cons_ite] at this
      split at this
      · next hn =>
        rw [lookup_eq_none fun e he => ?_, lookup_eq_none fun e he => ?_]
        · intro e'; exact absurd (hhd' e he) (by rw [hn, e']; exact String.lt_irrefl _)
        · intro e'; exact absurd (hhd e he) (by rw [hn, e']; exact String.lt_irrefl _)
      · exact this

/-- The last entry for a name counts. -/
theorem get?_insertAll (m : NameMap α) (l : List (String × α)) (name : String) :
    (m.insertAll l).get? name = (l.reverse.lookup name).or (m.get? name) := by
  induction l generalizing m with
  | nil => rfl
  | cons hd rest ih =>
    obtain ⟨n, v⟩ := hd
    have hstep : m.insertAll ((n, v) :: rest) = (m.insert n v).insertAll rest := rfl
    rw [hstep, ih, List.reverse_cons, List.lookup_append, get?_insert]
    cases rest.reverse.lookup name with
    | some x => rfl
    | none =>
      simp only [Option.none_or, lookup_cons_ite]
      split <;> rfl

theorem lookup_reverse {l : List (String × α)} (h : l.Pairwise fun a b => a.1 < b.1)
    (name : String) : l.reverse.lookup name = l.lookup name := by
  induction l with
  | nil => rfl
  | cons hd rest ih =>
    obtain ⟨n, v⟩ := hd
    obtain ⟨hhd, hrest⟩ := List.pairwise_cons.1 h
    rw [List.reverse_cons, List.lookup_append, ih hrest]
    simp only [lookup_cons_ite]
    split
    · next hn =>
      subst hn
      rw [lookup_eq_none fun e he e' => ?_]
      · rfl
      · exact absurd (hhd e he) (by rw [e']; exact String.lt_irrefl _)
    · simp

/-- An overlaid map gives a name the value of the upper map, else of the lower one. -/
@[simp] theorem get?_overlay (m upper : NameMap α) (name : String) :
    (m.overlay upper).get? name = (upper.get? name).or (m.get? name) := by
  rw [overlay, get?_insertAll, lookup_reverse upper.ascending]
  rfl

end NameMap

/-- A finite set of names. -/
abbrev NameSet := NameMap Unit

namespace NameSet

/-- The set of the names in a list. -/
def ofNames (names : List String) : NameSet := NameMap.ofList (names.map fun n => (n, ()))

end NameSet

end PackageStaging
