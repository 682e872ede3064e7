/-
# One push at a time

However the steps of pushes that share a coordinator are interleaved, at most one of them holds
the slot, and the coordinator is in flight exactly as long as one does.  The main result is
`Crowd.exclusive`; it says in addition what becomes of a push that is turned away, and on what
condition a staging area is emptied.  A push looks at the coordinator twice, before its first
announcement and after encoding; the second look takes the slot in the same move, and that is the
only move that takes it (`Push.Move.slot`).
-/
import Mathlib.Data.List.Induction
import Mathlib.Tactic.Lemma
import PackageStaging.Proofs.Push.Course
import PackageStaging.Push.Crowd

namespace PackageStaging

/-- Whether the push is over, at its end or because it was given up. -/
def Stage.isOver : Stage → Bool
  | .ended _ | .abandoned => true
  | _ => false

/-- Whether the push has called for a refresh or for a commit that has not been answered. -/
def Stage.isCalling : Stage → Bool
  | .refreshing _ | .uploading _ | .reporting _ => true
  | _ => false

lemma Stage.holdsSlot_of_isCalling {s : Stage} (h : s.isCalling = true) : s.holdsSlot = true := by
  cases s <;> first | rfl | simp [isCalling] at h

lemma Stage.holdsSlot_of_isOver {s : Stage} (h : s.isOver = true) : s.holdsSlot = false := by
  cases s <;> first | rfl | simp [isOver] at h

namespace Push

variable {c c' : Coordinator} {p p' : Push} {h : Happening} {a : StagingArea}
  {T : Prop} {R : Except Error Unit → Prop} {A : CommitAnswer → Prop}

/-! ### What a move leaves as it is -/

/-- What a push has asked for is not taken back. -/
lemma Move.history_prefix (m : Move c p h c' p') : p.history <+: p'.history := by
  cases m with
  | pass | turnAway | giveUp | note | resume => exact List.prefix_rfl
  | endFailed | endFinished | abandonSlot | abandon => exact List.prefix_rfl
  | refuse | begin | announceRefresh | callRefresh | announceUpload => exact List.prefix_append ..
  | failRefresh | callCommit | report | drain | reject | accept => exact List.prefix_append ..

lemma Move.hasBegun (m : Move c p h c' p') (hp : p.HasBegun) : p'.HasBegun := by
  obtain ⟨t, ht⟩ := hp
  exact ⟨t, m.history_prefix.subset ht⟩

lemma hasBegun_of_holdsSlot (hp : IsOnCourse T R A a p) (hs : p.stage.holdsSlot = true) :
    p.HasBegun := by
  rcases hp.begun_or with hbegun | ⟨hno, -, -⟩
  · exact hbegun
  · rw [hno] at hs
    exact nomatch hs

lemma hasBegun_of_payload? (hp : IsOnCourse T R A a p) (hs : p.payload?.isSome) : p.HasBegun := by
  rcases hp.begun_or with hbegun | ⟨-, -, hno⟩
  · exact hbegun
  · rw [payload?, hno] at hs
    exact nomatch hs

/-- Only a push that has begun changes its coordinator. -/
lemma Move.coordinator_eq_or_hasBegun (m : Move c p h c' p') (hp : IsOnCourse T R A a p) :
    c' = c ∨ p'.HasBegun := by
  cases m with
  | pass | refuse | turnAway | giveUp | announceRefresh | callRefresh => exact .inl rfl
  | announceUpload | failRefresh | callCommit | report | resume => exact .inl rfl
  | drain | reject | accept | abandon => exact .inl rfl
  | begin => exact .inr ⟨_, List.mem_append_right _ (.head _)⟩
  | note hpay => exact .inr (hasBegun_of_payload? hp hpay)
  | endFailed hs =>
    have hbegun : p.HasBegun := hasBegun_of_holdsSlot hp (by rw [hs]; rfl)
    exact .inr ((Move.endFailed (c := c) hs).hasBegun hbegun)
  | endFinished hs =>
    have hbegun : p.HasBegun := hasBegun_of_holdsSlot hp (by rw [hs]; rfl)
    exact .inr ((Move.endFinished (c := c) hs).hasBegun hbegun)
  | abandonSlot hs =>
    have hbegun : p.HasBegun := hasBegun_of_holdsSlot hp hs
    exact .inr ((Move.abandonSlot (c := c) hs).hasBegun hbegun)

/-- A failed attempt to take the slot is never the result of encoding. -/
lemma encode_ne_pushInFlight (a : StagingArea) : Payload.encode a ≠ .error .pushInFlight := by
  intro h
  obtain ⟨_, _, _, -, -, -, he⟩ := Payload.encode_eq_error h
  exact nomatch he

/-- A push holds the slot from its summary to its end. -/
lemma holdsSlot_iff (hp : IsOnCourse T R A a p) :
    p.stage.holdsSlot = true ↔ p.HasBegun ∧ p.stage.isOver = false := by
  constructor
  · intro hs
    refine ⟨hasBegun_of_holdsSlot hp hs, ?_⟩
    by_contra hover
    rw [Stage.holdsSlot_of_isOver (eq_true_of_ne_false hover)] at hs
    exact nomatch hs
  · rintro ⟨⟨t, ht⟩, hover⟩
    obtain ⟨b, stage, queue, hist⟩ := p
    change Course T R A a stage b hist at hp
    -- a push that has not taken the slot has told no summary
    cases hp with
    | starting => simp at ht
    | refused => simp at ht
    | turnedAway | givenUp | failed | finished | abandoned => exact nomatch hover
    | _ => rfl

lemma verdict_eq_pushInFlight {x : CommitAnswer} (h : verdict x = .error .pushInFlight) :
    x = .error .pushInFlight := by
  cases x with
  | error e => rw [← Except.error.inj h]
  | ok response =>
    rw [verdict] at h
    split at h
    · cases h
    · cases h

end Push

namespace Crowd

/-! ### Steps of a crowd -/

variable {crowd : Crowd} {os : List Occurrence} {i j : Nat} {p : Push} {h : Happening}

/-- The push that an occurrence concerns. -/
def concerned (crowd : Crowd) : Occurrence → Nat
  | .start _ => crowd.next
  | .to i _ => i

@[simp] lemma run_concat (c : Crowd) (os : List Occurrence) (o : Occurrence) :
    c.run (os ++ [o]) = (c.run os).step o := by
  simp [run]

lemma push?_start (c : Crowd) (a : StagingArea) (j : Nat) :
    (c.step (.start a)).push? j =
      if j = c.next then some (Push.start c.coordinator a) else c.push? j := by
  change (c.pushes ++ [_])[j]? = _
  rw [List.getElem?_append]
  split
  · next hlt =>
    have hj : j ≠ c.next := Nat.ne_of_lt hlt
    rw [if_neg hj, push?]
  · next hge =>
    by_cases hj : j = c.next
    · rw [if_pos hj, hj, next, Nat.sub_self, List.getElem?_cons_zero]
    · have hlt : c.pushes.length < j := Nat.lt_of_le_of_ne (Nat.le_of_not_lt hge) (Ne.symm hj)
      have hone : 1 ≤ j - c.pushes.length := Nat.sub_pos_of_lt hlt
      rw [if_neg hj, push?, List.getElem?_eq_none hone, List.getElem?_eq_none (Nat.le_of_lt hlt)]

lemma step_to (hp : crowd.push? i = some p) (h : Happening) :
    crowd.step (.to i h) =
      ⟨(p.step crowd.coordinator h).1, crowd.pushes.set i (p.step crowd.coordinator h).2⟩ := by
  rw [push?] at hp
  simp only [step, hp]

lemma push?_to (hp : crowd.push? i = some p) (h : Happening) (j : Nat) :
    (crowd.step (.to i h)).push? j =
      if j = i then some (p.step crowd.coordinator h).2 else crowd.push? j := by
  obtain ⟨hi, -⟩ := List.getElem?_eq_some_iff.1 hp
  rw [step_to hp, push?, List.getElem?_set]
  by_cases hij : i = j
  · rw [if_pos hij, if_pos hi, if_pos hij.symm]
  · rw [if_neg hij, if_neg (Ne.symm hij), push?]

lemma step_to_none (hp : crowd.push? i = none) (h : Happening) : crowd.step (.to i h) = crowd := by
  rw [push?] at hp
  simp only [step, hp]

/-- Everything that a step of a crowd can do: nothing, start a push, or one move of one push. -/
lemma step_cases (c : Crowd) (o : Occurrence) :
    (∃ i h, o = .to i h ∧ c.push? i = none ∧ c.step o = c) ∨
      (∃ a, o = .start a ∧ (c.step o).coordinator = c.coordinator ∧
        ∀ j, (c.step o).push? j =
          if j = c.next then some (Push.start c.coordinator a) else c.push? j) ∨
      (∃ i h p c' p', o = .to i h ∧ c.push? i = some p ∧ Push.Move c.coordinator p h c' p' ∧
        (c.step o).coordinator = c' ∧
        ∀ j, (c.step o).push? j = if j = i then some p' else c.push? j) := by
  rcases o with a | ⟨i, h⟩
  · exact .inr (.inl ⟨a, rfl, rfl, push?_start c a⟩)
  · cases hp : c.push? i with
    | none => exact .inl ⟨i, h, rfl, hp, step_to_none hp h⟩
    | some p =>
      refine .inr (.inr ⟨i, h, p, _, _, rfl, hp, Push.move_step c.coordinator p h, ?_, ?_⟩)
      · rw [step_to hp]
      · exact push?_to hp h

/-- Only the push that an occurrence concerns is changed by it. -/
lemma push?_step_of_ne {o : Occurrence} (hj : j ≠ crowd.concerned o) :
    (crowd.step o).push? j = crowd.push? j := by
  rcases o with a | ⟨i, h⟩
  · rw [push?_start, if_neg]
    exact hj
  · cases hp : crowd.push? i with
    | none => rw [step_to_none hp]
    | some p =>
      rw [push?_to hp, if_neg]
      exact hj

/-! ### The holder of the slot -/

/-- The push of this number holds the slot. -/
def Holds (c : Crowd) (i : Nat) : Prop := ∃ p, c.push? i = some p ∧ p.stage.holdsSlot = true

/-- The slot is held by at most one push, and the coordinator is in flight when it is held. -/
structure Sound (c : Crowd) : Prop where
  unique : ∀ i j, c.Holds i → c.Holds j → i = j
  inFlight_iff : c.coordinator.isInFlight = true ↔ ∃ i, c.Holds i

lemma sound_empty : Sound empty := by
  have hnone : ∀ i, ¬ empty.Holds i := by
    rintro i ⟨p, hp, -⟩
    exact nomatch hp
  refine ⟨fun i j hi => absurd hi (hnone i), ?_⟩
  constructor
  · intro h
    exact nomatch h
  · rintro ⟨i, hi⟩
    exact absurd hi (hnone i)

/-- A new push does not hold the slot. -/
lemma holdsSlot_start (c : Coordinator) (a : StagingArea) :
    (Push.start c a).stage.holdsSlot = false := by
  unfold Push.start
  cases c.isInFlight with
  | true => rfl
  | false => rfl

/-- Soundness depends on the coordinator's flight and on who holds the slot only. -/
lemma Sound.congr {d : Crowd} (hc : crowd.Sound)
    (hflight : d.coordinator.isInFlight = crowd.coordinator.isInFlight)
    (hholds : ∀ j, d.Holds j ↔ crowd.Holds j) : d.Sound where
  unique j k hj hk := hc.unique j k ((hholds j).1 hj) ((hholds k).1 hk)
  inFlight_iff := by
    rw [hflight, hc.inFlight_iff]
    exact exists_congr fun j => (hholds j).symm

lemma holds_start (c : Crowd) (a : StagingArea) (j : Nat) :
    (c.step (.start a)).Holds j ↔ c.Holds j := by
  simp only [Holds, push?_start]
  split
  · next hj =>
    have hnone : c.push? j = none := List.getElem?_eq_none (Nat.le_of_eq hj.symm)
    constructor
    · rintro ⟨p, hp, hs⟩
      rw [← Option.some.inj hp, holdsSlot_start] at hs
      exact nomatch hs
    · rintro ⟨p, hp, -⟩
      rw [hnone] at hp
      exact nomatch hp
  · exact Iff.rfl

/-- What a step does to the holder of the slot is what the move of the push does. -/
lemma Sound.step (hc : crowd.Sound) (o : Occurrence) : (crowd.step o).Sound := by
  rcases step_cases crowd o with ⟨i, h, -, -, hstep⟩ | ⟨a, rfl, hcoord, -⟩ |
    ⟨i, h, p, c', p', -, hp, hmove, rfl, hpush⟩
  · rw [hstep]
    exact hc
  · exact hc.congr (congrArg _ hcoord) (holds_start crowd a)
  have hself : (crowd.step o).Holds i ↔ p'.stage.holdsSlot = true := by
    simp [Holds, hpush]
  have hself' : crowd.Holds i ↔ p.stage.holdsSlot = true := by
    simp [Holds, hp]
  have hother : ∀ j, j ≠ i → ((crowd.step o).Holds j ↔ crowd.Holds j) := by
    intro j hj
    simp [Holds, hpush, hj]
  rcases hmove.slot with ⟨hsame, hflight⟩ | ⟨-, hidle, htaken, hflight⟩ | ⟨hheld, hgiven, hidle⟩
  · refine hc.congr hflight fun j => ?_
    by_cases hj : j = i
    · rw [hj, hself, hself', hsame]
    · exact hother j hj
  · -- nobody held the slot before, so the push that takes it is the only holder
    have honly : ∀ j, (crowd.step o).Holds j → j = i := by
      intro j hholds
      by_contra hj
      have hflies := hc.inFlight_iff.2 ⟨j, (hother j hj).1 hholds⟩
      rw [hidle] at hflies
      exact nomatch hflies
    refine ⟨fun j k hj hk => (honly j hj).trans (honly k hk).symm, ?_⟩
    rw [hflight]
    exact ⟨fun _ => ⟨i, hself.2 htaken⟩, fun _ => rfl⟩
  · -- the push that gives the slot back was the only holder, so nobody is left
    have hnone : ∀ j, ¬ (crowd.step o).Holds j := by
      intro j hholds
      by_cases hj : j = i
      · rw [hj, hself, hgiven] at hholds
        exact nomatch hholds
      · exact hj (hc.unique j i ((hother j hj).1 hholds) (hself'.2 hheld))
    refine ⟨fun j k hj => absurd hj (hnone j), ?_⟩
    rw [hidle]
    constructor
    · intro h
      exact nomatch h
    · rintro ⟨j, hj⟩
      exact absurd hj (hnone j)

/-- However the pushes are interleaved, one at most holds the slot. -/
theorem sound_run (os : List Occurrence) : (empty.run os).Sound := by
  induction os using List.reverseRecOn with
  | nil => exact sound_empty
  | append_singleton os o ih =>
    rw [run_concat]
    exact ih.step o

/-! ### The course of each push -/

/-- The staging areas with which pushes were started. -/
def started (os : List Occurrence) : List StagingArea :=
  os.filterMap fun o =>
    match o with
    | .start a => some a
    | .to _ _ => none

@[simp] lemma started_append (os os' : List Occurrence) :
    started (os ++ os') = started os ++ started os' :=
  List.filterMap_append

/-- The refresh that the push of this number had called for came back with this result. -/
def Refreshed (os : List Occurrence) (i : Nat) (r : Except Error Unit) : Prop :=
  ∃ before after p payload, os = before ++ .to i (.refreshed r) :: after ∧
    (empty.run before).push? i = some p ∧ p.stage = .refreshing payload

/-- The commit that the push of this number had called for was answered with this answer. -/
def Answered (os : List Occurrence) (i : Nat) (x : CommitAnswer) : Prop :=
  ∃ before after p payload, os = before ++ .to i (.answered x) :: after ∧
    (empty.run before).push? i = some p ∧ p.stage = .uploading payload

lemma Refreshed.append {r : Except Error Unit} (hr : Refreshed os i r) (more : List Occurrence) :
    Refreshed (os ++ more) i r := by
  obtain ⟨before, after, p, payload, rfl, hp, hs⟩ := hr
  exact ⟨before, after ++ more, p, payload, by simp, hp, hs⟩

lemma Answered.append {x : CommitAnswer} (hx : Answered os i x) (more : List Occurrence) :
    Answered (os ++ more) i x := by
  obtain ⟨before, after, p, payload, rfl, hp, hs⟩ := hx
  exact ⟨before, after ++ more, p, payload, by simp, hp, hs⟩

lemma next_run (os : List Occurrence) : (empty.run os).next = (started os).length := by
  induction os using List.reverseRecOn with
  | nil => rfl
  | append_singleton os o ih =>
    rw [run_concat, started_append, List.length_append, ← ih]
    rcases o with a | ⟨i, h⟩
    · exact List.length_append
    · change _ = (empty.run os).next
      simp only [next, Crowd.step]
      split
      · rfl
      · simp

/-- Every push is on its course from the staging area with which it was started, by the answers
that came in turn. -/
theorem course_run (os : List Occurrence) (i : Nat) (p : Push)
    (hp : (empty.run os).push? i = some p) :
    ∃ a, (started os)[i]? = some a ∧ p.IsOnCourse True (Refreshed os i) (Answered os i) a := by
  induction os using List.reverseRecOn generalizing i p with
  | nil => exact nomatch hp
  | append_singleton os o ih =>
    rw [run_concat] at hp
    -- a push that is there already stays on its course when more has happened
    have old : ∀ j q, (empty.run os).push? j = some q →
        ∃ a, (started (os ++ [o]))[j]? = some a ∧
          q.IsOnCourse True (Refreshed (os ++ [o]) j) (Answered (os ++ [o]) j) a := by
      intro j q hq
      obtain ⟨a, ha, hcourse⟩ := ih j q hq
      refine ⟨a, ?_, hcourse.mono id (fun r hr => hr.append [o]) fun x hx => hx.append [o]⟩
      obtain ⟨hlt, -⟩ := List.getElem?_eq_some_iff.1 ha
      rw [started_append, List.getElem?_append_left hlt]
      exact ha
    rcases step_cases (empty.run os) o with ⟨_, _, -, -, hstep⟩ | ⟨a, rfl, -, hpush⟩ |
      ⟨k, h, q, c', q', rfl, hq, hmove, -, hpush⟩
    · rw [hstep] at hp
      exact old i p hp
    · rw [hpush] at hp
      split at hp
      · next hi =>
        refine ⟨a, ?_, Option.some.inj hp ▸ Push.isOnCourse_start _ a fun _ => trivial⟩
        rw [started_append, hi, next_run]
        simp [started]
      · exact old i p hp
    · rw [hpush] at hp
      split at hp
      · next hi =>
        obtain ⟨a, ha, hcourse⟩ := old k q hq
        rw [hi, ← Option.some.inj hp]
        refine ⟨a, ha, hmove.course hcourse (fun _ _ => trivial) ?_ ?_⟩
        · rintro r payload rfl hs
          exact ⟨os, [], q, payload, rfl, hq, hs⟩
        · rintro x payload rfl hs
          exact ⟨os, [], q, payload, rfl, hq, hs⟩
      · exact old i p hp

/-- What happened to this push left the coordinator as it was, and every other push. -/
def Quiet (os : List Occurrence) (i : Nat) : Prop :=
  ∀ before o after, os = before ++ o :: after → (empty.run before).concerned o = i →
    (empty.run (before ++ [o])).coordinator = (empty.run before).coordinator ∧
      ∀ j, j ≠ i → (empty.run (before ++ [o])).push? j = (empty.run before).push? j

/-- What has left the coordinator as it was so far leaves it so with one more thing that
concerns another push or leaves the coordinator as it is. -/
lemma Quiet.concat {o : Occurrence} (hq : Quiet os i)
    (ho : (empty.run os).concerned o = i →
      ((empty.run os).step o).coordinator = (empty.run os).coordinator) :
    Quiet (os ++ [o]) i := by
  intro before o' after heq hconcerned
  refine ⟨?_, fun j hj => ?_⟩
  · rcases List.eq_nil_or_concat after with rfl | ⟨after, last, rfl⟩
    · obtain ⟨rfl, hlast⟩ := List.append_inj' heq rfl
      obtain ⟨rfl, -⟩ := List.cons.inj hlast
      rw [run_concat]
      exact ho hconcerned
    · have hcut : os ++ [o] = (before ++ o' :: after) ++ [last] := by
        simpa using heq
      obtain ⟨hos, -⟩ := List.append_inj' hcut rfl
      exact (hq before o' after hos hconcerned).1
  · rw [run_concat]
    exact push?_step_of_ne (hconcerned ▸ hj)

/-- The push of this number has begun. -/
def Begun (c : Crowd) (i : Nat) : Prop := ∃ p, c.push? i = some p ∧ p.HasBegun

lemma Begun.step (hb : crowd.Begun i) (o : Occurrence) : (crowd.step o).Begun i := by
  obtain ⟨p, hp, hbegun⟩ := hb
  rcases step_cases crowd o with ⟨_, _, -, -, hstep⟩ | ⟨a, -, -, hpush⟩ |
    ⟨k, h, q, c', q', -, hq, hmove, -, hpush⟩
  · rw [hstep]
    exact ⟨p, hp, hbegun⟩
  · obtain ⟨hlt, -⟩ := List.getElem?_eq_some_iff.1 hp
    have hi : i ≠ crowd.next := Nat.ne_of_lt hlt
    exact ⟨p, by rw [hpush, if_neg hi, hp], hbegun⟩
  · by_cases hi : i = k
    · rw [hi, hq] at hp
      rw [← Option.some.inj hp] at hbegun
      exact ⟨q', by rw [hpush, if_pos hi], hmove.hasBegun hbegun⟩
    · exact ⟨p, by rw [hpush, if_neg hi, hp], hbegun⟩

/-- A push that has not begun has left everybody else alone. -/
theorem begun_or_quiet (os : List Occurrence) (i : Nat) :
    (empty.run os).Begun i ∨ Quiet os i := by
  induction os using List.reverseRecOn with
  | nil =>
    refine .inr fun before o after hnil => ?_
    exact absurd hnil (by simp)
  | append_singleton os o ih =>
    rw [run_concat]
    rcases ih with hbegun | hquiet
    · exact .inl (hbegun.step o)
    rcases step_cases (empty.run os) o with ⟨_, _, -, -, hstep⟩ | ⟨a, -, hcoord, -⟩ |
      ⟨k, h, q, c', q', rfl, hq, hmove, hcoord, hpush⟩
    · exact .inr (hquiet.concat fun _ => congrArg _ hstep)
    · exact .inr (hquiet.concat fun _ => hcoord)
    · by_cases hi : k = i
      · subst hi
        obtain ⟨a, -, hcourse⟩ := course_run os k q hq
        rcases hmove.coordinator_eq_or_hasBegun hcourse with hsame | hbegun
        · exact .inr (hquiet.concat fun _ => hcoord.trans hsame)
        · exact .inl ⟨q', by rw [hpush, if_pos rfl], hbegun⟩
      · exact .inr (hquiet.concat fun hk => absurd hk hi)

/-! ### The main result -/

/-- What holds of pushes on one coordinator after anything has happened to them. -/
structure Exclusive (os : List Occurrence) : Prop where
  /-- At most one push holds the slot. -/
  oneHolder : ∀ i j, (empty.run os).Holds i → (empty.run os).Holds j → i = j
  /-- The coordinator is in flight exactly when a push holds the slot. -/
  inFlight : (empty.run os).coordinator.isInFlight = true ↔ ∃ i, (empty.run os).Holds i
  /-- A push holds the slot from the message that it tells with the slot just taken to its end. -/
  holds : ∀ i p, (empty.run os).push? i = some p →
    ((empty.run os).Holds i ↔ p.HasBegun ∧ p.stage.isOver = false)
  /-- The coordinator is idle when all pushes are over. -/
  idle : (∀ i p, (empty.run os).push? i = some p → p.stage.isOver = true) →
    (empty.run os).coordinator = .idle
  /-- Calls of different pushes do not overlap. -/
  oneCaller : ∀ i j p q, (empty.run os).push? i = some p → (empty.run os).push? j = some q →
    p.stage.isCalling = true → q.stage.isCalling = true → i = j
  /-- A push that ends because another one is running has called for nothing, has kept its
  staging area and has left the coordinator and every other push as they were; else this failure
  is how its own refresh ended or how its own commit was answered. -/
  turnedAway : ∀ i p, (empty.run os).push? i = some p → p.result? = some (.error .pushInFlight) →
    ((∀ d ∈ p.history, d.event?.isSome) ∧ (started os)[i]? = some p.area ∧ Quiet os i) ∨
      Refreshed os i (.error .pushInFlight) ∨ Answered os i (.error .pushInFlight)
  /-- The staging area of a push is the one with which it was started, or it is empty and the
  push's own commit was accepted. -/
  emptied : ∀ i p, (empty.run os).push? i = some p →
    (started os)[i]? = some p.area ∨
      (p.area = .empty ∧ ∃ response, Answered os i (.ok response) ∧ response.isOk = true)

/-- Pushes on one coordinator exclude each other, in whatever order things happen to them. -/
theorem exclusive (os : List Occurrence) : Exclusive os where
  oneHolder := (sound_run os).unique
  inFlight := (sound_run os).inFlight_iff
  holds i p hp := by
    obtain ⟨a, -, hcourse⟩ := course_run os i p hp
    rw [← Push.holdsSlot_iff hcourse]
    simp [Holds, hp]
  idle hover := by
    apply Coordinator.eq_idle
    by_contra hflight
    obtain ⟨i, p, hp, hs⟩ := (sound_run os).inFlight_iff.1 (eq_true_of_ne_false hflight)
    rw [Stage.holdsSlot_of_isOver (hover i p hp)] at hs
    cases hs
  oneCaller i j p q hp hq hps hqs := by
    have hi : (empty.run os).Holds i := ⟨p, hp, Stage.holdsSlot_of_isCalling hps⟩
    have hj : (empty.run os).Holds j := ⟨q, hq, Stage.holdsSlot_of_isCalling hqs⟩
    exact (sound_run os).unique i j hi hj
  turnedAway i p hp hresult := by
    obtain ⟨a, ha, hcourse⟩ := course_run os i p hp
    rw [Push.IsOnCourse, Push.stage_of_result? hresult] at hcourse
    rcases hcourse.failure with ⟨-, -, harea, n, hhist⟩ | he | hr | ⟨x, hx, hv⟩
    · refine .inl ⟨?_, harea ▸ ha, ?_⟩
      · intro d hd
        rw [hhist] at hd
        rw [List.mem_singleton.1 (List.mem_of_mem_take hd)]
        rfl
      · -- the push has told no summary, so it has not begun
        refine (begun_or_quiet os i).resolve_left ?_
        rintro ⟨q, hq, t, ht⟩
        rw [hp] at hq
        rw [← Option.some.inj hq, hhist] at ht
        cases List.mem_singleton.1 (List.mem_of_mem_take ht)
    · exact absurd he (Push.encode_ne_pushInFlight a)
    · exact .inr (.inl hr)
    · exact .inr (.inr (Push.verdict_eq_pushInFlight hv ▸ hx))
  emptied i p hp := by
    obtain ⟨a, ha, hcourse⟩ := course_run os i p hp
    rcases hcourse.area_eq with harea | ⟨hempty, x, hx, hv⟩
    · exact .inl (harea ▸ ha)
    · obtain ⟨response, rfl, hok⟩ := Push.verdict_eq_ok hv
      exact .inr ⟨hempty, response, hx, hok⟩

/-- A push ends as if another one were running when the server says so, though it has called for
a refresh. -/
theorem refresh_before_pushInFlight :
    ¬ ∀ os i p, (empty.run os).push? i = some p → p.result? = some (.error .pushInFlight) →
      Demand.refresh ∉ p.history := by
  intro h
  have hno := h (.start ⟨[⟨⟨"stable/core/x86_64"⟩, .ofPatch (.delete ["foo"])⟩]⟩ ::
    Occurrence.opening 0 (.error .pushInFlight)) 0 _ rfl rfl
  exact hno (.tail _ (.tail _ (.tail _ (.head _))))

end Crowd

end PackageStaging
