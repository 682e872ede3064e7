/-
# What is encoded

`Payload.encode` is opened here once: it succeeds if nothing is missing of any upload, and its
form then has the numbered packages and after them the three lists (`encode_eq_ok_iff`); it fails
with the first upload of which something is missing (`encode_eq_error_iff`).
-/
import PackageStaging.Payload
import PackageStaging.Proofs.Outcome

namespace PackageStaging.Payload

variable {a : StagingArea} {us : List (String × Upload)} {ready : List ReadyUpload}

/-- An upload is sent as it is when nothing is missing of it. -/
lemma require_eq_ok_iff {e : String × Upload} {u : ReadyUpload} :
    require e = .ok u ↔ e.2.ready? = some u := by
  unfold require
  cases he : e.2.ready? with
  | none => simp
  | some v => simp

lemma require_eq_error_iff {v : String × Upload} {e : Error} :
    require v = .error e ↔ v.2.ready? = none ∧ e = .missingFields v.1 v.2.missing := by
  unfold require
  cases hv : v.2.ready? with
  | none => simp [eq_comm]
  | some u => simp

/-- The uploads are ready together when each of them is. -/
lemma mapM_require_eq_ok_iff :
    us.mapM require = .ok ready ↔ us.map (fun e => e.2.ready?) = ready.map some := by
  induction us generalizing ready with
  | nil =>
    rw [List.mapM_nil, List.map_nil, eq_comm (a := []), List.map_eq_nil_iff, eq_comm]
    constructor
    · intro h
      exact Except.ok.inj h
    · intro h
      exact congrArg Except.ok h
  | cons e es ih =>
    rw [List.mapM_cons, List.map_cons, bind_eq_ok_iff]
    constructor
    · rintro ⟨u, hu, hrest⟩
      obtain ⟨rest, hes, h⟩ := bind_eq_ok_iff.1 hrest
      rw [← Except.ok.inj h, List.map_cons, ih.1 hes, require_eq_ok_iff.1 hu]
    · intro h
      cases ready with
      | nil => exact nomatch h
      | cons u rest =>
        obtain ⟨hu, hes⟩ := List.cons.inj h
        exact ⟨u, require_eq_ok_iff.2 hu, bind_eq_ok_iff.2 ⟨rest, ih.2 hes, rfl⟩⟩

/-- The uploads are not ready together because of the first that is not ready. -/
lemma mapM_require_eq_error_iff {e : Error} : us.mapM require = .error e ↔
    ∃ v, us.find? (fun v => v.2.ready?.isNone) = some v ∧ e = .missingFields v.1 v.2.missing := by
  induction us with
  | nil => simp [List.mapM_nil, pure, Except.pure]
  | cons v vs ih =>
    rw [List.mapM_cons, bind_eq_error_iff, require_eq_error_iff]
    cases hv : v.2.ready? with
    | none =>
      rw [List.find?_cons_of_pos (by simp [hv])]
      constructor
      · rintro (⟨-, he⟩ | ⟨u, hu, -⟩)
        · exact ⟨v, rfl, he⟩
        · rw [require_eq_ok_iff, hv] at hu
          cases hu
      · rintro ⟨w, hw, he⟩
        cases hw
        exact .inl ⟨rfl, he⟩
    | some u =>
      rw [List.find?_cons_of_neg (by simp [hv]), ← ih]
      constructor
      · rintro (⟨hnone, -⟩ | ⟨u', -, hrest⟩)
        · cases hnone
        · rcases bind_eq_error_iff.1 hrest with hvs | ⟨rest, -, hnever⟩
          · exact hvs
          · cases hnever
      · intro hvs
        exact .inr ⟨u, require_eq_ok_iff.2 hv, bind_eq_error_iff.2 (.inl hvs)⟩

/-- The form of a staging area of which nothing is missing. -/
theorem encode_eq_ok_iff {p : Payload} :
    encode a = .ok p ↔ ∃ ready, a.uploads.map (fun e => e.2.ready?) = ready.map some ∧
      p = ⟨numberedParts 1 ready ++ closingParts a, ready.length⟩ := by
  unfold encode
  rw [bind_eq_ok_iff]
  constructor
  · rintro ⟨ready, hready, h⟩
    exact ⟨ready, mapM_require_eq_ok_iff.1 hready, (Except.ok.inj h).symm⟩
  · rintro ⟨ready, hready, rfl⟩
    exact ⟨ready, mapM_require_eq_ok_iff.2 hready, rfl⟩

/-- The form counts the packages that are uploaded. -/
lemma packageCount_of_encode {p : Payload} (h : encode a = .ok p) :
    p.packageCount = a.uploads.length := by
  obtain ⟨ready, hready, rfl⟩ := encode_eq_ok_iff.1 h
  simpa using (congrArg List.length hready).symm

/-- A staging area is refused for the first upload of which something is missing. -/
theorem encode_eq_error_iff {e : Error} : encode a = .error e ↔
    ∃ v, a.uploads.find? (fun v => v.2.ready?.isNone) = some v ∧
      e = .missingFields v.1 v.2.missing := by
  rw [← mapM_require_eq_error_iff, encode, bind_eq_error_iff]
  refine or_iff_left ?_
  rintro ⟨ready, -, hnever⟩
  cases hnever

/-- What stands before the upload for which a staging area is refused is ready. -/
lemma encode_eq_error {e : Error} (h : encode a = .error e) :
    ∃ before u after, a.uploads = before ++ u :: after ∧ (∀ v ∈ before, v.2.ready?.isSome) ∧
      u.2.ready? = none ∧ e = .missingFields u.1 u.2.missing := by
  obtain ⟨u, hu, he⟩ := encode_eq_error_iff.1 h
  obtain ⟨hnone, before, after, hsplit, hbefore⟩ := List.find?_eq_some_iff_append.1 hu
  exact ⟨before, u, after, hsplit, by simpa using hbefore, by simpa using hnone, he⟩

end PackageStaging.Payload
