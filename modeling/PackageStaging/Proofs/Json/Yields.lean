/-
# What a reader can give

`Yields r P` says that every value which `r` gives, whatever the source, has the property `P`.  As
for `Reads`, there is one lemma for each way in which readers are put together: the property of a
list is that of its elements, and a record is covered by a property of what has been collected,
which every member keeps (`yields_record`).
-/
import Mathlib.Tactic.SplitIfs
import PackageStaging.Json.Reader
import PackageStaging.Proofs.Outcome

namespace PackageStaging.Json

variable {α β σ : Type} {r : Reader α} {P : α → Prop} {Q : β → Prop} {I : σ → Prop}
  {member : σ → String → Source → Except Snag (σ × Source)}

/-- Every value that the reader gives has the property. -/
def Yields (r : Reader α) (P : α → Prop) : Prop := ∀ s a rest, r s = .ok (a, rest) → P a

lemma yields_any (r : Reader α) : Yields r fun _ => True := fun _ _ _ _ => trivial

/-! ### Values -/

/-- The fault of a value of the wrong type is a fault. -/
lemma wrongType_ne_ok (wanted : String) (s : Source) (x : α × Source) :
    wrongType wanted s ≠ .ok x := by
  intro h
  have hfault : ∀ found rest,
      (mismatched (.wrongType found wanted) rest : Except Snag (α × Source)) ≠ .ok x :=
    fun _ _ h => nomatch h
  unfold wrongType at h
  split at h
  · exact nomatch h
  · split_ifs at h
    -- words are read to their end before the fault is reported
    · exact bind_ne_ok (fun _ => hfault _ _) h
    · exact bind_ne_ok (fun _ => hfault _ _) h
    · exact bind_ne_ok (fun _ => hfault _ _) h
    · exact bind_ne_ok (fun _ => hfault _ _) h
    · exact bind_ne_ok (fun _ => hfault _ _) h
    · exact bind_ne_ok (fun _ => hfault _ _) h
    · exact hfault _ _ h
    · exact hfault _ _ h
    · exact nomatch h

/-- A reader whose value is worked over. -/
lemma Yields.map (h : Yields r P) (f : α → β) (hf : ∀ a, P a → Q (f a)) :
    Yields (fun s => do let (x, s) ← r s; return (f x, s)) Q := by
  intro s b rest hb
  obtain ⟨⟨a, rest'⟩, ha, hpure⟩ := bind_eq_ok_iff.1 hb
  rw [← (Prod.mk.inj (Except.ok.inj hpure)).1]
  exact hf a (h s a rest' ha)

lemma yields_nullable (h : Yields r P) : Yields (nullable r) fun o => ∀ a, o = some a → P a := by
  intro s o rest ho a ha
  unfold nullable at ho
  split at ho
  · obtain ⟨_, -, hpure⟩ := bind_eq_ok_iff.1 ho
    rw [← (Prod.mk.inj (Except.ok.inj hpure)).1] at ha
    exact nomatch ha
  · obtain ⟨⟨a', rest'⟩, ha', hpure⟩ := bind_eq_ok_iff.1 ho
    rw [← (Prod.mk.inj (Except.ok.inj hpure)).1] at ha
    rw [← Option.some.inj ha]
    exact h _ a' rest' ha'

/-! ### Lists -/

lemma yields_elements (h : Yields r P) {fuel : Nat} {first : Bool} {read as : List α}
    {s rest : Source} (hread : ∀ a ∈ read, P a)
    (hok : elements r fuel first read s = .ok (as, rest)) : ∀ a ∈ as, P a := by
  -- what has been read so far has the property, and each element is added to it
  induction fuel generalizing first read s with
  | zero => exact nomatch hok
  | succ fuel ih =>
    obtain ⟨next, -, hok⟩ := bind_eq_ok_iff.1 hok
    cases next with
    | none =>
      obtain ⟨_, -, hpure⟩ := bind_eq_ok_iff.1 hok
      rw [← (Prod.mk.inj (Except.ok.inj hpure)).1]
      exact fun a ha => hread a (List.mem_reverse.1 ha)
    | some s' =>
      obtain ⟨⟨a, s''⟩, ha, hok⟩ := bind_eq_ok_iff.1 hok
      exact ih (List.forall_mem_cons.2 ⟨h s' a s'' ha, hread⟩) hok

lemma yields_list (h : Yields r P) : Yields (list r) fun as => ∀ a ∈ as, P a := by
  intro s as rest hok
  obtain ⟨s', -, hok⟩ := bind_eq_ok_iff.1 hok
  split at hok
  · exact yields_elements h (fun a ha => absurd ha List.not_mem_nil) hok
  · exact absurd hok (wrongType_ne_ok _ _ _)

/-! ### Objects -/

/-- What every member keeps, all members keep. -/
lemma members_keep
    (hmember : ∀ state key s state' rest, I state → member state key s = .ok (state', rest) →
      I state')
    {fuel : Nat} {first : Bool} {state state' : σ} {s rest : Source} (hI : I state)
    (hok : members member fuel first state s = .ok (state', rest)) : I state' := by
  induction fuel generalizing first state s with
  | zero => exact nomatch hok
  | succ fuel ih =>
    obtain ⟨next, -, hok⟩ := bind_eq_ok_iff.1 hok
    cases next with
    | none =>
      rw [← (Prod.mk.inj (Except.ok.inj hok)).1]
      exact hI
    | some s' =>
      obtain ⟨⟨key, s''⟩, -, hok⟩ := bind_eq_ok_iff.1 hok
      obtain ⟨⟨next, s'''⟩, hnext, hok⟩ := bind_eq_ok_iff.1 hok
      exact ih (hmember state key s'' next s''' hI hnext) hok

lemma yields_namedValues (h : Yields r P) :
    Yields (namedValues r) fun es => ∀ e ∈ es, P e.2 := by
  intro s es rest hok
  obtain ⟨s', -, hok⟩ := bind_eq_ok_iff.1 hok
  split at hok
  · obtain ⟨⟨read, rest'⟩, hread, hpure⟩ := bind_eq_ok_iff.1 hok
    have hall : ∀ e ∈ read, P e.2 := by
      refine members_keep (I := fun read : List (String × α) => ∀ e ∈ read, P e.2) ?_
        (fun e he => absurd he List.not_mem_nil) hread
      intro read key s read' rest hread hok
      obtain ⟨s₁, -, hok⟩ := bind_eq_ok_iff.1 hok
      obtain ⟨⟨v, s₂⟩, hv, hpure⟩ := bind_eq_ok_iff.1 hok
      rw [← (Prod.mk.inj (Except.ok.inj hpure)).1]
      exact List.forall_mem_cons.2 ⟨h s₁ v s₂ hv, hread⟩
    rw [← (Prod.mk.inj (Except.ok.inj hpure)).1]
    exact fun e he => hall e (List.mem_reverse.1 he)
  · exact absurd hok (wrongType_ne_ok _ _ _)

/-! ### Records -/

variable {rec : Record σ α} {state state' : σ} {s rest : Source}

lemma takeMember_keeps
    (hmember : ∀ m ∈ rec.members, ∀ state, I state → Yields (m.read state) I) {key : String}
    (hI : I state) (hok : rec.takeMember state key s = .ok (state', rest)) : I state' := by
  unfold Record.takeMember at hok
  split at hok
  · obtain ⟨s₁, -, hok⟩ := bind_eq_ok_iff.1 hok
    obtain ⟨s₂, -, hpure⟩ := bind_eq_ok_iff.1 hok
    rwa [← (Prod.mk.inj (Except.ok.inj hpure)).1]
  · next m hm =>
    split at hok
    · exact nomatch hok
    · obtain ⟨s₁, -, hread⟩ := bind_eq_ok_iff.1 hok
      exact hmember m (List.mem_of_find?_eq_some hm) state hI s₁ state' rest hread

lemma takeElements_keeps {ms : List (Member σ)} {index : Nat}
    (hmember : ∀ m ∈ ms, ∀ state, I state → Yields (m.read state) I) (hI : I state)
    (hok : rec.takeElements ms index state s = .ok (state', rest)) : I state' := by
  induction ms generalizing index state s with
  | nil =>
    obtain ⟨s', -, hpure⟩ := bind_eq_ok_iff.1 hok
    rwa [← (Prod.mk.inj (Except.ok.inj hpure)).1]
  | cons m ms ih =>
    obtain ⟨hm, hms⟩ := List.forall_mem_cons.1 hmember
    obtain ⟨next, -, hok⟩ := bind_eq_ok_iff.1 hok
    cases next with
    | some s' =>
      obtain ⟨⟨state₁, s₁⟩, hread, hok⟩ := bind_eq_ok_iff.1 hok
      exact ih hms (hm state hI s' state₁ s₁ hread) hok
    | none =>
      change (if m.mayEnd = true then _ else _) = _ at hok
      split at hok
      · exact ih hms hI hok
      · exact absurd hok (bind_ne_ok fun _ h => nomatch h)

/-- What holds before anything is read and is kept by every member holds of what is finished. -/
lemma yields_record (hblank : I rec.blank)
    (hmember : ∀ m ∈ rec.members, ∀ state, I state → Yields (m.read state) I)
    (hfinish : ∀ state a, I state → rec.finish state = .ok a → P a) : Yields rec.read P := by
  intro s a rest hok
  obtain ⟨s', -, hok⟩ := bind_eq_ok_iff.1 hok
  -- an object and a list end alike: what has been collected is finished
  extract_lets finished at hok
  have hfinished : ∀ x, I x.1 → finished x = .ok (a, rest) → P a := by
    intro x hI hx
    refine hfinish x.1 a hI ?_
    cases hfin : rec.finish x.1 with
    | ok a' =>
      simp only [finished, hfin] at hx
      rw [(Prod.mk.inj (Except.ok.inj hx)).1]
    | error m =>
      simp only [finished, hfin] at hx
      cases hx
  split at hok
  · obtain ⟨x, hx, hend⟩ := bind_eq_ok_iff.1 hok
    exact hfinished x (members_keep (fun _ _ _ _ _ => takeMember_keeps hmember) hblank hx) hend
  · obtain ⟨x, hx, hend⟩ := bind_eq_ok_iff.1 hok
    exact hfinished x (takeElements_keeps hmember hblank hx) hend
  · obtain ⟨x, hx, -⟩ := bind_eq_ok_iff.1 hok
    exact absurd hx (wrongType_ne_ok _ _ _)

lemma required_eq_ok_iff {key : String} {o : Option α} {a : α} :
    required key o = .ok a ↔ o = some a := by
  cases o with
  | none => simp [required]
  | some a' => simp [required]

/-! ### Documents -/

/-- A document that is decoded holds a value that the check accepts. -/
lemma decodeChecked_eq_ok {check : α → Except String β} {doc : Source} {b : β}
    (h : decodeChecked r check doc = .ok b) :
    ∃ a rest, r doc = .ok (a, rest) ∧ check a = .ok b := by
  unfold decodeChecked at h
  split at h
  · exact nomatch h
  · next a rest hread =>
    split at h
    · exact nomatch h
    · next b' hcheck =>
      split at h
      · rw [← Except.ok.inj h]
        exact ⟨a, rest, hread, hcheck⟩
      · exact nomatch h

end PackageStaging.Json
