/-
# Record highs

The sink of a push is called while the payload is sent, with any numbers of bytes.  A fraction that
is greater than zero and than all fractions before it is taken down and told; the others go
unnoticed.  So the fractions that a push tells are the strict maxima of the calls from left to right
(`Binary64.records`), and while it holds the slot the greatest one so far is shown
(`Crowd.recordedAt_run`).  Nothing that was taken down is left behind when the push is over, because
the last event is told only after the queue has become empty (`Push.queue_step`).
-/
import PackageStaging.Proofs.Push.Highs
import PackageStaging.Proofs.Push.Protocol
import PackageStaging.Proofs.Push.Sinks

namespace PackageStaging

/-! ### The commit of a push -/

/-- Whether the commit of the push is under way. -/
def Stage.isCommitting : Stage → Bool
  | .uploading _ | .reporting _ => true
  | _ => false

/-- Whether the push may have fractions to tell: its commit is under way or has been answered, or it
was given up meanwhile. -/
def Stage.mayOwe : Stage → Bool
  | .uploading _ | .reporting _ | .draining _ _ | .abandoned => true
  | _ => false

lemma Stage.holdsSlot_of_isCommitting {s : Stage} (h : s.isCommitting = true) :
    s.holdsSlot = true := by
  cases s <;> first | rfl | simp [isCommitting] at h

lemma Stage.mayOwe_of_isCommitting {s : Stage} (h : s.isCommitting = true) : s.mayOwe = true := by
  cases s <;> first | rfl | simp [isCommitting] at h

/-- What happens to a push is a call to its sink or not. -/
lemma Happening.sent_or (h : Happening) :
    (∃ bytes total, h = .sent bytes total) ∨ ∀ bytes total, h ≠ .sent bytes total := by
  cases h with
  | sent bytes total => exact .inl ⟨bytes, total, rfl⟩
  | _ => exact .inr fun _ _ => Happening.noConfusion

/-- The last event of a push with this result. -/
def Event.closing : Except Error PushOutcome → Event
  | .error e => .failure e
  | .ok _ => .phase .complete

lemma Event.fractions_progress (fs : List Binary64) :
    (fs.map Event.progress).filterMap Event.fraction? = fs := by
  induction fs with
  | nil => rfl
  | cons f fs ih => simp [Event.fraction?, ih]

namespace Push

variable {c c' : Coordinator} {p p' : Push} {h : Happening} {payload : Payload}
  {answer : CommitAnswer}

/-- A push that has not asked for its commit has no sink. -/
lemma step_sent_of_none (hp : p.payload? = none) (c : Coordinator) (bytes total : Nat) :
    p.step c (.sent bytes total) = (c, p) := by
  simp [step, hp]

lemma Move.payload? (m : Move c p h c' p') (hp : p.payload?.isSome) : p'.payload?.isSome := by
  obtain ⟨more, hmore⟩ := m.history_prefix
  rw [Push.payload?, ← hmore, List.findSome?_append, Option.isSome_or]
  exact Bool.or_eq_true_iff.2 (.inl hp)

/-- A push that has asked for its commit does not forget it. -/
lemma payload?_steps {hs : List Happening} (hp : p.payload?.isSome) :
    (steps c p hs).2.payload?.isSome := by
  induction hs generalizing c p with
  | nil => exact hp
  | cons h hs ih => exact ih ((move_step c p h).payload? hp)

lemma step_takesUp (ht : p.TakesUp h payload answer) (c : Coordinator) :
    p.step c h = (c, p.drain payload answer) := by
  rcases ht with ⟨hs, rfl⟩ | ⟨hs, rfl⟩
  · simp only [step, hs]
  · simp only [step, afterTold, hs]

/-- A push settles when nothing is left to be told. -/
lemma queue_drain (hs : (p.drain payload answer).stage.mayOwe = false) :
    (p.drain payload answer).queue = [] := by
  unfold drain at hs ⊢
  cases hq : p.queue with
  | cons f fs =>
    rw [hq] at hs
    exact nomatch hs
  | nil =>
    cases answer with
    | error e => exact hq
    | ok response =>
      simp only [settle]
      split
      · exact hq
      · exact hq

/-- What is taken down while the commit is under way is told before anything else happens. -/
lemma queue_step (hp : p.stage.mayOwe = false → p.queue = [])
    (hh : ∀ bytes total, h = .sent bytes total → p.payload?.isSome → p.stage.isCommitting = true)
    (howe : (p.step c h).2.stage.mayOwe = false) : (p.step c h).2.queue = [] := by
  have hmove := move_step c p h
  generalize hstep : p.step c h = after at hmove howe
  obtain ⟨c', p'⟩ := after
  dsimp only at hmove howe ⊢
  cases hmove with
  | pass => exact hp howe
  | refuse hs | turnAway hs | begin hs | giveUp hs => exact hp (by rw [hs]; rfl)
  | announceRefresh hs | callRefresh hs | announceUpload hs => exact hp (by rw [hs]; rfl)
  | failRefresh hs | endFailed hs | endFinished hs => exact hp (by rw [hs]; rfl)
  | callCommit | report | resume | drain | abandonSlot | abandon => exact nomatch howe
  | note hpay =>
    have howes := Stage.mayOwe_of_isCommitting (hh _ _ rfl hpay)
    exact absurd howes (by rw [howe]; exact Bool.false_ne_true)
  | reject hs | accept hs =>
    rw [step_takesUp hs] at hstep
    rw [← (Prod.mk.inj hstep).2] at howe ⊢
    exact queue_drain howe

lemma events_told (fs : List Binary64) :
    (told fs).filterMap Demand.event? = fs.map Event.progress := by
  induction fs with
  | nil => rfl
  | cons f fs ih =>
    rw [List.map_cons, ← ih]
    rfl

section

variable {T : Prop} {R : Except Error Unit → Prop} {A : CommitAnswer → Prop} {a b : StagingArea}
  {hist : List Demand}

lemma Course.uncommitted (h : Course T R A a .starting b hist) :
    hist.findSome? Demand.payload? = none := by
  cases h with
  | starting => rfl

lemma Course.committed (h : Course T R A a (.uploading payload) b hist) :
    (hist.findSome? Demand.payload?).isSome := by
  cases h with
  | uploading => rfl

/-- A push that is over and had asked for its commit has told the fractions of it and after them how
it ended. -/
lemma Course.closed {r : Except Error PushOutcome} (h : Course T R A a (.ended r) b hist)
    (hpay : (hist.findSome? Demand.payload?).isSome) :
    ∃ payload fs, hist = demands a payload ++ told fs ++ [.tell (Event.closing r)] := by
  cases h with
  | @turnedAway n _ =>
    cases n with
    | zero => exact absurd hpay Bool.false_ne_true
    | succ n =>
      rw [List.take_succ_cons, List.take_nil] at hpay
      exact absurd hpay Bool.false_ne_true
  | givenUp h =>
    cases h with
    | refused => exact absurd hpay Bool.false_ne_true
  | failed h =>
    cases h with
    | refreshFailed => exact absurd hpay Bool.false_ne_true
    | commitFailed fs => exact ⟨_, fs, rfl⟩
  | finished h =>
    cases h with
    | finishing fs => exact ⟨_, fs, rfl⟩

end

end Push

/-! ### The calls to one sink -/

namespace Crowd

open Binary64 SinkCall

variable {c : Crowd} {o : Occurrence} {os : List Occurrence} {i : Nat} {p : Push}

/-- Whether a call leaves it to the push of this number to report: it is made to the push's own sink
while its commit is under way, or to another sink while the push does not hold the slot. -/
def allows (c : Crowd) (i : Nat) (call : SinkCall) : Bool :=
  (c.push? i).all fun p =>
    if call.push = i then p.stage.isCommitting else !p.stage.holdsSlot

/-- All calls are made to the sink of this push inside its commit, or do not concern it. -/
def CalledInside (c : Crowd) (i : Nat) : List Occurrence → Prop
  | [] => True
  | o :: os => (∀ call ∈ c.called o, c.allows i call = true) ∧ (c.step o).CalledInside i os

instance decidableCalledInside (c : Crowd) (i : Nat) :
    (os : List Occurrence) → Decidable (c.CalledInside i os)
  | [] => .isTrue trivial
  | o :: os =>
    have := decidableCalledInside (c.step o) i os
    inferInstanceAs (Decidable ((∀ call ∈ c.called o, c.allows i call = true) ∧ _))

/-- The fractions of the calls to the sink of this push. -/
def fractions (c : Crowd) (i : Nat) (os : List Occurrence) : List Binary64 :=
  (own i (c.calls os)).map SinkCall.fraction

lemma fraction_le_one_of_mem {call : SinkCall} (h : call ∈ c.calls os) : call.fraction ≤ .one := by
  induction os generalizing c with
  | nil => cases h
  | cons o os ih =>
    rw [calls, List.mem_append, Option.mem_toList] at h
    refine h.elim (fun h => ?_) ih
    unfold called at h
    split at h
    · split_ifs at h
      rw [← Option.some.inj h]
      exact Coordinator.fraction_le_one _ _
    · cases h

lemma calledInside_append (c : Crowd) (i : Nat) (os os' : List Occurrence) :
    c.CalledInside i (os ++ os') ↔ c.CalledInside i os ∧ (c.run os).CalledInside i os' := by
  induction os generalizing c with
  | nil => simp [CalledInside, run]
  | cons o os ih =>
    rw [List.cons_append, CalledInside, CalledInside, ih, and_assoc]
    rfl

lemma fractions_append (c : Crowd) (i : Nat) (os os' : List Occurrence) :
    c.fractions i (os ++ os') = c.fractions i os ++ (c.run os).fractions i os' := by
  simp [fractions, calls_append, own_append]

/-- What a push has reported after its sink was called with these fractions, and what is shown while
it holds the slot. -/
structure Recorded (c : Crowd) (p : Push) (fs : List Binary64) : Prop where
  /-- Without a sink there are no calls. -/
  uncalled : p.payload? = none → fs = []
  reports : p.reports = records fs
  shown : p.stage.holdsSlot = true → ∃ f, c.coordinator = .inFlight f ∧ IsPeak f fs
  queue : p.stage.mayOwe = false → p.queue = []

/-- The same of the push of a number, if there is one. -/
structure RecordedAt (c : Crowd) (i : Nat) (fs : List Binary64) : Prop where
  absent : c.push? i = none → fs = []
  recorded : ∀ p, c.push? i = some p → c.Recorded p fs

variable {fs : List Binary64}

lemma recorded_start (c c' : Crowd) (a : StagingArea) :
    c'.Recorded (Push.start c.coordinator a) [] where
  uncalled _ := rfl
  reports := Push.reports_start c.coordinator a
  shown h := by
    rw [holdsSlot_start] at h
    exact nomatch h
  queue _ := by
    unfold Push.start
    split_ifs
    · rfl
    · rfl

/-- What happens to other pushes does not matter to one that holds the slot. -/
lemma Recorded.other (hp : c.Recorded p fs)
    (hkept : p.stage.holdsSlot = true → (c.step o).coordinator = c.coordinator) :
    (c.step o).Recorded p fs where
  uncalled := hp.uncalled
  reports := hp.reports
  shown hs := by
    rw [hkept hs]
    exact hp.shown hs
  queue := hp.queue

/-- A call to the sink of a push inside its commit. -/
lemma Recorded.called (hp : c.Recorded p fs) (hi : c.push? i = some p) (hpay : p.payload?.isSome)
    (hs : p.stage.isCommitting = true) (bytes total : Nat) :
    (c.step (.to i (.sent bytes total))).Recorded (p.step c.coordinator (.sent bytes total)).2
      (fs ++ [Coordinator.fraction bytes total]) := by
  obtain ⟨f, hf, hpeak⟩ := hp.shown (Stage.holdsSlot_of_isCommitting hs)
  have hstep := Push.step_sent hpay f bytes total
  have hcoordinator : (c.step (.to i (.sent bytes total))).coordinator =
      (p.step c.coordinator (.sent bytes total)).1 := by
    rw [step_to hi]
  have hrecords : records (fs ++ [Coordinator.fraction bytes total]) =
      records fs ++ if f < Coordinator.fraction bytes total then
        [Coordinator.fraction bytes total] else [] := by
    rw [records, recordsAfter_concat, List.nil_append, if_congr hpeak.exceeds_iff rfl rfl]
    rfl
  have hnext := hpeak.concat (Coordinator.fraction bytes total)
  have hcalled : p.payload? ≠ none := Option.isSome_iff_ne_none.1 hpay
  have howes : p.stage.mayOwe ≠ false := ne_false_of_eq_true (Stage.mayOwe_of_isCommitting hs)
  rw [hf, hstep] at hcoordinator ⊢
  split_ifs at hrecords hnext hcoordinator ⊢ with hlt
  · refine ⟨fun hnone => absurd hnone hcalled, ?_, fun _ => ⟨_, hcoordinator, hnext⟩,
      fun howe => absurd howe howes⟩
    rw [hrecords, ← hp.reports]
    simp [Push.reports, Push.events]
  · refine ⟨fun hnone => absurd hnone hcalled, ?_, fun _ => ⟨_, hcoordinator, hnext⟩,
      fun howe => absurd howe howes⟩
    rw [hrecords, List.append_nil]
    exact hp.reports

/-- Anything else that happens to the push. -/
lemma Recorded.moved (hp : c.Recorded p fs) (hi : c.push? i = some p) (hc : c.Sound)
    (hstart : p.stage = .starting → p.payload? = none) {h : Happening}
    (hh : ∀ bytes total, h ≠ .sent bytes total) :
    (c.step (.to i h)).Recorded (p.step c.coordinator h).2 fs := by
  have m := Push.move_step c.coordinator p h
  have hcoordinator : (c.step (.to i h)).coordinator = (p.step c.coordinator h).1 := by
    rw [step_to hi]
  refine ⟨fun hnone => ?_, ?_, fun hs => ?_, ?_⟩
  · rw [Push.payload?, List.findSome?_eq_none_iff] at hnone
    refine hp.uncalled (List.findSome?_eq_none_iff.2 fun d hd => ?_)
    exact hnone d (m.history_prefix.subset hd)
  · rcases m.reports_eq_or with hsame | ⟨-, bytes, total, heq⟩
    · rw [hsame]
      exact hp.reports
    · exact absurd heq (hh bytes total)
  · have hholds : (c.step (.to i h)).Holds i := ⟨_, by rw [push?_to hi, if_pos rfl], hs⟩
    have hflight := (hc.step (.to i h)).inFlight_iff.2 ⟨i, hholds⟩
    rw [hcoordinator] at hflight ⊢
    by_cases hheld : p.stage.holdsSlot = true
    · obtain ⟨f, hf, hpeak⟩ := hp.shown hheld
      rw [hf] at m hflight ⊢
      exact ⟨f, m.coordinator_eq hh hflight, hpeak⟩
    · -- the push takes the slot with this move, so nothing is shown and nobody had its sink
      have hidle : c.coordinator = .idle := by
        rcases m.slot with ⟨hsame, -⟩ | ⟨-, hidle, -, -⟩ | ⟨hgives, -, -⟩
        · exact absurd (hsame ▸ hs) hheld
        · exact Coordinator.eq_idle hidle
        · exact absurd hgives hheld
      rw [hidle] at m hflight ⊢
      obtain ⟨hzero, hstarting⟩ := m.begins hflight
      rw [hp.uncalled (hstart hstarting)]
      exact ⟨.zero, hzero, isPeak_nil⟩
  · exact Push.queue_step hp.queue fun bytes total heq => absurd heq (hh bytes total)

/-! ### All that happens -/

lemma step_sent_of_none {q : Push} {j : Nat} (hq : c.push? j = some q) (hpay : q.payload? = none)
    (bytes total : Nat) : c.step (.to j (.sent bytes total)) = c := by
  obtain ⟨hj, rfl⟩ := List.getElem?_eq_some_iff.1 hq
  rw [step_to hq, Push.step_sent_of_none hpay, List.set_getElem_self]

/-- What happens to another push leaves the coordinator as it is while this one holds the slot,
unless it is a call. -/
lemma coordinator_step_other {q : Push} {j : Nat} {h : Happening} (hc : c.Sound) (hij : i ≠ j)
    (hp : c.push? i = some p) (hs : p.stage.holdsSlot = true) (hq : c.push? j = some q)
    (hh : ∀ bytes total, h ≠ .sent bytes total) :
    (c.step (.to j h)).coordinator = c.coordinator := by
  have hholds : (c.step (.to j h)).Holds i := ⟨p, by rw [push?_to hq, if_neg hij, hp], hs⟩
  have hflight := (hc.step (.to j h)).inFlight_iff.2 ⟨i, hholds⟩
  have hbefore := hc.inFlight_iff.2 ⟨i, p, hp, hs⟩
  have m := Push.move_step c.coordinator q h
  rw [step_to hq] at hflight ⊢
  cases hf : c.coordinator with
  | idle =>
    rw [hf] at hbefore
    exact nomatch hbefore
  | inFlight f =>
    rw [hf] at m hflight
    exact m.coordinator_eq hh hflight

lemma called_eq_none {j : Nat} {h : Happening} (hh : ∀ bytes total, h ≠ .sent bytes total) :
    c.called (.to j h) = none := by
  cases h with
  | sent bytes total => exact absurd rfl (hh bytes total)
  | _ => rfl

lemma called_of_none {j : Nat} (hq : c.push? j = none) (h : Happening) :
    c.called (.to j h) = none := by
  cases h with
  | sent => simp [called, hq]
  | _ => rfl

/-- Happenings of other pushes are no calls to the sink of this one. -/
lemma own_called_of_ne {j : Nat} (hij : i ≠ j) (c : Crowd) (h : Happening) :
    own i (c.called (.to j h)).toList = [] := by
  cases h with
  | sent bytes total =>
    simp only [Crowd.called]
    split_ifs
    · simp [own, hij.symm]
    · rfl
  | _ => rfl

/-- A call to the sink of this push is made inside its commit, and one to another sink while this
push does not hold the slot. -/
lemma allowed_of_called {j bytes total : Nat} {q : Push} (hq : c.push? j = some q)
    (hpay : q.payload?.isSome) (hp : c.push? i = some p)
    (hallowed : ∀ call ∈ c.called (.to j (.sent bytes total)), c.allows i call = true) :
    if j = i then p.stage.isCommitting = true else p.stage.holdsSlot = false := by
  have hcall := hallowed ⟨j, Coordinator.fraction bytes total⟩ (by simp [called, hq, hpay])
  rw [allows, hp, Option.all_some] at hcall
  split_ifs at hcall ⊢
  · exact hcall
  · simpa using hcall

/-- Whatever happens to the push itself. -/
lemma Recorded.step (hp : c.Recorded p fs) (hi : c.push? i = some p) (hc : c.Sound)
    (hstart : p.stage = .starting → p.payload? = none) {h : Happening}
    (hallowed : ∀ call ∈ c.called (.to i h), c.allows i call = true) :
    (c.step (.to i h)).Recorded (p.step c.coordinator h).2
      (fs ++ (own i (c.called (.to i h)).toList).map SinkCall.fraction) := by
  obtain ⟨bytes, total, rfl⟩ | hh := h.sent_or
  · cases hpay : p.payload? with
    | none =>
      rw [step_sent_of_none hi hpay, Push.step_sent_of_none hpay]
      simpa [Crowd.called, hi, hpay, own] using hp
    | some payload =>
      have hpay : p.payload?.isSome := by rw [hpay]; rfl
      have hinside := allowed_of_called hi hpay hi hallowed
      rw [if_pos rfl] at hinside
      simpa [Crowd.called, hi, hpay, own] using hp.called hi hpay hinside bytes total
  · rw [called_eq_none hh]
    simpa [own] using hp.moved hi hc hstart hh

/-- Whatever happens to another push. -/
lemma Recorded.step_other {q : Push} {j : Nat} (hp : c.Recorded p fs) (hi : c.push? i = some p)
    (hc : c.Sound) (hij : i ≠ j) (hq : c.push? j = some q) {h : Happening}
    (hallowed : ∀ call ∈ c.called (.to j h), c.allows i call = true) :
    (c.step (.to j h)).Recorded p fs := by
  refine hp.other fun hs => ?_
  obtain ⟨bytes, total, rfl⟩ | hh := h.sent_or
  · cases hpay : q.payload? with
    | none => rw [step_sent_of_none hq hpay]
    | some payload =>
      have hfree := allowed_of_called hq (by rw [hpay]; rfl) hi hallowed
      rw [if_neg (Ne.symm hij), hs] at hfree
      exact nomatch hfree
  · exact coordinator_step_other hc hij hi hs hq hh

/-- What happens keeps the account of the calls to the sink of a push. -/
lemma RecordedAt.step (hr : c.RecordedAt i fs) (hc : c.Sound)
    (hstart : ∀ p, c.push? i = some p → p.stage = .starting → p.payload? = none)
    (hallowed : ∀ call ∈ c.called o, c.allows i call = true) :
    (c.step o).RecordedAt i (fs ++ (own i (c.called o).toList).map SinkCall.fraction) := by
  rcases o with a | ⟨j, h⟩
  · simp only [called, Option.toList_none, own, List.filter_nil, List.map_nil, List.append_nil]
    refine ⟨fun habsent => hr.absent ?_, fun p hp => ?_⟩
    · rw [push?_start] at habsent
      split_ifs at habsent
      exact habsent
    · rw [push?_start] at hp
      split_ifs at hp with hi
      · have hnew : c.push? i = none := List.getElem?_eq_none (Nat.le_of_eq hi.symm)
        rw [hr.absent hnew, ← Option.some.inj hp]
        exact recorded_start c _ a
      · exact (hr.recorded p hp).other fun _ => rfl
  · cases hq : c.push? j with
    | none =>
      rw [step_to_none hq, called_of_none hq]
      simpa [own] using hr
    | some q =>
      by_cases hij : i = j
      · subst hij
        refine ⟨fun habsent => ?_, fun p hp => ?_⟩
        · rw [push?_to hq, if_pos rfl] at habsent
          cases habsent
        · rw [push?_to hq, if_pos rfl] at hp
          rw [← Option.some.inj hp]
          exact (hr.recorded q hq).step hq hc (hstart q hq) hallowed
      · rw [own_called_of_ne hij, List.map_nil, List.append_nil]
        refine ⟨fun habsent => hr.absent ?_, fun p hp => ?_⟩
        · rwa [push?_to hq, if_neg hij] at habsent
        · rw [push?_to hq, if_neg hij] at hp
          exact (hr.recorded p hp).step_other hp hc hij hq hallowed

/-- A push that is starting has not asked for its commit. -/
lemma payload?_of_starting (hi : (empty.run os).push? i = some p) (hs : p.stage = .starting) :
    p.payload? = none := by
  obtain ⟨a, -, hcourse⟩ := course_run os i p hi
  rw [Push.IsOnCourse, hs] at hcourse
  exact hcourse.uncommitted

lemma payload?_of_uploading {payload : Payload} (hi : (empty.run os).push? i = some p)
    (hs : p.stage = .uploading payload) : p.payload?.isSome := by
  obtain ⟨a, -, hcourse⟩ := course_run os i p hi
  rw [Push.IsOnCourse, hs] at hcourse
  exact hcourse.committed

/-- However the pushes are interleaved, a push whose sink is called inside its commit only, while no
other sink is, reports the strict maxima of the calls. -/
theorem recordedAt_run (hinside : empty.CalledInside i os) :
    (empty.run os).RecordedAt i (empty.fractions i os) := by
  induction os using List.reverseRecOn with
  | nil => exact ⟨fun _ => rfl, fun p hp => nomatch hp⟩
  | append_singleton os o ih =>
    rw [calledInside_append] at hinside
    obtain ⟨hbefore, hlast⟩ := hinside
    rw [run_concat, fractions_append]
    have hnext := (ih hbefore).step (o := o) (sound_run os) (fun p => payload?_of_starting) hlast.1
    simpa [fractions, calls] using hnext

/-! ### The main result -/

lemma run_to (hi : c.push? i = some p) (hs : List Happening) :
    (c.run (hs.map (.to i))).push? i = some (Push.steps c.coordinator p hs).2 := by
  induction hs generalizing c p with
  | nil => exact hi
  | cons h hs ih =>
    have hnext : (c.step (.to i h)).push? i = some (p.step c.coordinator h).2 := by
      rw [push?_to hi, if_pos rfl]
    have hcoordinator : (c.step (.to i h)).coordinator = (p.step c.coordinator h).1 := by
      rw [step_to hi]
    have hrest := ih hnext
    rw [hcoordinator] at hrest
    exact hrest

/-- Without calls there is nothing to take down. -/
lemma silent_of_forall {hs : List Happening} (hh : ∀ h ∈ hs, ∀ bytes total, h ≠ .sent bytes total)
    (c : Crowd) (i : Nat) :
    c.CalledInside i (hs.map (.to i)) ∧ c.fractions i (hs.map (.to i)) = [] := by
  induction hs generalizing c with
  | nil => exact ⟨trivial, rfl⟩
  | cons h hs ih =>
    obtain ⟨hinside, hnone⟩ := ih (fun h' hmem => hh h' (.tail _ hmem)) (c.step (.to i h))
    have hcalled := called_eq_none (c := c) (j := i) (hh h (.head _))
    rw [List.map_cons, CalledInside, fractions, calls, hcalled]
    exact ⟨⟨fun call hcall => (Option.not_mem_none call hcall).elim, hinside⟩, hnone⟩

/-- What a push has told at its end, with this result: after the announcement of the upload these
fractions, and after them its failure or the last phase. -/
def Delivered (p : Push) (highs : List Binary64) (r : Except Error PushOutcome) : Prop :=
  ∃ text, p.events =
    [.phase .encoding, .message text, .phase .refreshing, .phase .uploading] ++
      highs.map .progress ++ [Event.closing r]

/-- What becomes of the calls to the sink of a push. -/
structure TellsHighs (os : List Occurrence) (i : Nat) (p : Push) : Prop where
  /-- The strict maxima ascend. -/
  ascend : (records (empty.fractions i os)).Pairwise (· < ·)
  /-- They are above zero and at most one. -/
  within : ∀ f ∈ records (empty.fractions i os), .zero < f ∧ f ≤ .one
  /-- They have been told in order, up to those that are still to be told. -/
  reports : p.reports = records (empty.fractions i os)
  /-- The greatest of zero and all fractions is shown. -/
  shown : p.stage.holdsSlot = true →
    ∃ f, (empty.run os).coordinator = .inFlight f ∧ IsPeak f (empty.fractions i os)
  /-- When the push is over, and has come to its commit, all of them have been told. -/
  delivered : ∀ r, p.stage = .ended r → p.payload?.isSome →
    Delivered p (records (empty.fractions i os)) r
  /-- They are also told if the answer comes while some are left, whatever it is. -/
  ends : ∀ payload answer, p.stage = .uploading payload →
    ∃ q r, (empty.run (os ++ Occurrence.closing i answer p.queue.length)).push? i = some q ∧
      q.stage = .ended r ∧ Delivered q (records (empty.fractions i os)) r

lemma delivered_of_ended (hinside : empty.CalledInside i os) (hi : (empty.run os).push? i = some p)
    {r : Except Error PushOutcome} (hr : p.stage = .ended r) (hpay : p.payload?.isSome) :
    Delivered p (records (empty.fractions i os)) r := by
  obtain ⟨a, -, hcourse⟩ := course_run os i p hi
  rw [Push.IsOnCourse, hr] at hcourse
  obtain ⟨payload, fs, hhist⟩ := hcourse.closed hpay
  have hrecorded := (recordedAt_run hinside).recorded p hi
  have hevents : p.events =
      [.phase .encoding, .message (Push.summary payload.packageCount a.size), .phase .refreshing,
        .phase .uploading] ++ fs.map .progress ++ [Event.closing r] := by
    rw [Push.events, hhist, List.filterMap_append, List.filterMap_append, Push.events_told]
    rfl
  have htold : records (empty.fractions i os) = fs := by
    have hqueue : p.queue = [] := hrecorded.queue (by rw [hr]; rfl)
    rw [← hrecorded.reports, Push.reports, hqueue, List.append_nil, hevents,
      List.filterMap_append, List.filterMap_append, Event.fractions_progress]
    cases r with
    | error e => exact List.append_nil fs
    | ok o => exact List.append_nil fs
  exact ⟨_, by rw [hevents, htold]⟩

lemma closing_eq (i : Nat) (answer : CommitAnswer) (n : Nat) :
    Occurrence.closing i answer n =
      (Happening.answered answer :: List.replicate (n + 1) .told).map (.to i) := by
  simp [Occurrence.closing]

lemma silent_closing (c : Crowd) (i : Nat) (answer : CommitAnswer) (n : Nat) :
    c.CalledInside i (Occurrence.closing i answer n) ∧
      c.fractions i (Occurrence.closing i answer n) = [] := by
  rw [closing_eq]
  refine silent_of_forall (fun h hmem => ?_) c i
  rcases List.mem_cons.1 hmem with rfl | hmem
  · exact fun _ _ => Happening.noConfusion
  · rw [List.eq_of_mem_replicate hmem]
    exact fun _ _ => Happening.noConfusion

/-- A push that is sending its payload is over when the answer has come and all that was taken down
has been told. -/
lemma ended_closing (hi : c.push? i = some p) {payload : Payload}
    (hs : p.stage = .uploading payload) (answer : CommitAnswer) :
    ∃ q r, (c.run (Occurrence.closing i answer p.queue.length)).push? i = some q ∧
      q.stage = .ended r ∧ (p.payload?.isSome → q.payload?.isSome) := by
  have hq := run_to hi (Happening.answered answer :: List.replicate (p.queue.length + 1) .told)
  rw [← closing_eq] at hq
  have hstep : p.step c.coordinator (.answered answer) =
      (c.coordinator, p.drain payload answer) := by
    simp only [Push.step, hs]
  obtain ⟨r, hr⟩ :=
    Push.ended_drain c.coordinator p payload answer (Nat.lt_succ_self p.queue.length)
  refine ⟨_, r, hq, ?_, Push.payload?_steps⟩
  rw [Push.steps_cons, hstep]
  exact hr

/-- All is told if the answer to the commit comes while some is left, whatever it is. -/
lemma delivered_closing (hinside : empty.CalledInside i os) (hi : (empty.run os).push? i = some p)
    {payload : Payload} (hs : p.stage = .uploading payload) (answer : CommitAnswer) :
    ∃ q r, (empty.run (os ++ Occurrence.closing i answer p.queue.length)).push? i = some q ∧
      q.stage = .ended r ∧ Delivered q (records (empty.fractions i os)) r := by
  obtain ⟨q, r, hq, hr, hkept⟩ := ended_closing hi hs answer
  obtain ⟨hlast, hnone⟩ := silent_closing (empty.run os) i answer p.queue.length
  have hrun : (empty.run os).run (Occurrence.closing i answer p.queue.length) =
      empty.run (os ++ Occurrence.closing i answer p.queue.length) := by
    simp [run]
  rw [hrun] at hq
  have hpay : q.payload?.isSome := hkept (payload?_of_uploading hi hs)
  have hall := delivered_of_ended ((calledInside_append _ _ _ _).2 ⟨hinside, hlast⟩) hq hr hpay
  rw [fractions_append, hnone, List.append_nil] at hall
  exact ⟨q, r, hq, hr, hall⟩

/-- A push tells the strict maxima of the fractions with which its sink is called, each once and in
order, if the sink is called inside its commit only and no other sink is while it holds the slot. -/
theorem record_highs (hinside : empty.CalledInside i os) (hi : (empty.run os).push? i = some p) :
    TellsHighs os i p where
  ascend := recordsAfter_ascend [] _
  within f hf := by
    obtain ⟨hmem, hzero, -⟩ := mem_of_mem_recordsAfter hf
    obtain ⟨call, hcall, rfl⟩ := List.mem_map.1 hmem
    exact ⟨hzero, fraction_le_one_of_mem (List.mem_of_mem_filter hcall)⟩
  reports := ((recordedAt_run hinside).recorded p hi).reports
  shown := ((recordedAt_run hinside).recorded p hi).shown
  delivered r := delivered_of_ended hinside hi
  ends payload answer hs := delivered_closing hinside hi hs answer

/-- A deletion is pushed; a fraction is told while the next one is taken down, one is lower than
those before it, more bytes than there are are sent, and then the commit fails. -/
def overrun : List Occurrence :=
  .start oneDeletion :: Occurrence.opening 0 (.ok ()) ++
    [.to 0 (.sent 1 4), .to 0 .heard, .to 0 (.sent 3 4), .to 0 .told, .to 0 (.sent 1 2),
      .to 0 (.sent 9 4), .to 0 (.sent 0 0)] ++
    Occurrence.closing 0 (.error .unauthorized) 2

/-- What is left when the commit fails is told before the failure. -/
theorem record_highs_overrun :
    empty.CalledInside 0 overrun ∧ ∃ p, (empty.run overrun).push? 0 = some p ∧
      Delivered p [Coordinator.fraction 1 4, Coordinator.fraction 3 4, .one]
        (.error .unauthorized) := by
  have hinside : empty.CalledInside 0 overrun := by decide +kernel
  have hhighs : records (empty.fractions 0 overrun) =
      [Coordinator.fraction 1 4, Coordinator.fraction 3 4, .one] := by
    decide +kernel
  refine ⟨hinside, _, rfl, ?_⟩
  rw [← hhighs]
  exact (record_highs hinside rfl).delivered _ rfl rfl

end Crowd

end PackageStaging
