/-
# What a push does when it is alone

A push that is alone on its coordinator ends in one of four ways, and what it has asked for, what
becomes of its staging area and its result belong together (`Push.Account`).  `Push.protocol`
says so for every order in which things can happen to it: while the payload is sent, any number
of fractions may be noted and told in between.
-/
import PackageStaging.Proofs.Push.Course
import PackageStaging.Push.Submission

namespace PackageStaging

/-- What happens to a push that is not given up, whose refresh ends in this way and whose commit
is answered so. -/
def Happening.Agrees (refresh : Except Error Unit) (answer : CommitAnswer) : Happening → Prop
  | .refreshed r => r = refresh
  | .answered x => x = answer
  | .dropped => False
  | _ => True

/-- The failure that an event tells. -/
def Event.failure? : Event → Option Error
  | .failure e => some e
  | _ => none

namespace Push

variable {a : StagingArea} {refresh : Except Error Unit} {answer : CommitAnswer}
  {c : Coordinator} {p : Push}

/-- How a push of the area `a` ends, with the area `b` and after these demands: because the area
cannot be encoded, because the refresh fails, because the commit fails or is not accepted, or
because all went well. -/
def Account (a : StagingArea) (refresh : Except Error Unit) (answer : CommitAnswer)
    (b : StagingArea) (hist : List Demand) (r : Except Error PushOutcome) : Prop :=
  match Payload.encode a with
  | .error e =>
    r = .error e ∧ b = a ∧ hist = [.tell (.phase .encoding), .tell (.failure e)]
  | .ok payload =>
    match refresh, verdict answer with
    | .error e, _ =>
      r = .error e ∧ b = a ∧ hist = [.tell (.phase .encoding),
        .tell (.message (summary payload.packageCount a.size)), .tell (.phase .refreshing),
        .refresh, .tell (.failure e)]
    | .ok (), .error e =>
      r = .error e ∧ b = a ∧
        ∃ fs, hist = demands a payload ++ told fs ++ [.tell (.failure e)]
    | .ok (), .ok () =>
      r = .ok ⟨a.entries.length, a.uploads.length, true⟩ ∧ b = .empty ∧
        ∃ fs, hist = demands a payload ++ told fs ++ [.tell (.phase .complete)]

/-- The course of a push that has met no other one and is over, told by its end. -/
lemma Course.account {r : Except Error PushOutcome} {b : StagingArea} {hist : List Demand}
    (h : Course False (· = refresh) (· = answer) a (.ended r) b hist) :
    Account a refresh answer b hist r := by
  unfold Account
  cases h with
  | turnedAway ht => exact ht.elim
  | givenUp h =>
    cases h with
    | refused he =>
      rw [he]
      exact ⟨rfl, rfl, rfl⟩
  | failed h =>
    cases h with
    | refreshFailed he hr =>
      rw [he, ← hr]
      exact ⟨rfl, rfl, rfl⟩
    | commitFailed fs he hr ha hv =>
      rw [he, ← hr, ← ha, hv]
      exact ⟨rfl, rfl, fs, rfl⟩
  | finished h =>
    cases h with
    | finishing fs he hr ha hv =>
      rw [he, ← hr, ← ha, hv, ← Payload.packageCount_of_encode he]
      exact ⟨rfl, rfl, fs, rfl⟩

/-! ### The push alone -/

/-- A push and its coordinator when there is no other push and it has not been given up. -/
structure Alone (refresh : Except Error Unit) (answer : CommitAnswer) (a : StagingArea)
    (c : Coordinator) (p : Push) : Prop where
  course : IsOnCourse False (· = refresh) (· = answer) a p
  slot : c.isInFlight = p.stage.holdsSlot
  kept : p.stage ≠ .abandoned

lemma alone_start (a : StagingArea) : Alone refresh answer a .idle (start .idle a) where
  course := isOnCourse_start .idle a fun h => nomatch h
  slot := rfl
  kept h := nomatch h

/-- Only a push that is given up is abandoned. -/
lemma Move.not_abandoned {c' : Coordinator} {p' : Push} {h : Happening} (m : Move c p h c' p')
    (hp : p.stage ≠ .abandoned) (hh : h ≠ .dropped) : p'.stage ≠ .abandoned := by
  cases m with
  | pass | note => exact hp
  | abandonSlot | abandon => exact absurd rfl hh
  | _ => exact fun h => nomatch h

lemma Alone.step (hp : Alone refresh answer a c p) {h : Happening} (hh : h.Agrees refresh answer) :
    Alone refresh answer a (p.step c h).1 (p.step c h).2 := by
  have hmove := move_step c p h
  refine ⟨hmove.course hp.course ?_ ?_ ?_, ?_, hmove.not_abandoned hp.kept ?_⟩
  · intro hs hflight
    rw [hp.slot, hs] at hflight
    exact nomatch hflight
  · rintro r payload rfl -
    exact hh
  · rintro x payload rfl -
    exact hh
  · rcases hmove.slot with ⟨hsame, hflight⟩ | ⟨-, -, htaken, hflight⟩ | ⟨-, hgiven, hidle⟩
    · rw [hflight, hp.slot, hsame]
    · rw [hflight, htaken]
    · rw [hidle, hgiven]
  · rintro rfl
    exact hh

lemma steps_cons (c : Coordinator) (p : Push) (h : Happening) (hs : List Happening) :
    steps c p (h :: hs) = steps (p.step c h).1 (p.step c h).2 hs := rfl

lemma steps_append (c : Coordinator) (p : Push) (hs hs' : List Happening) :
    steps c p (hs ++ hs') = steps (steps c p hs).1 (steps c p hs).2 hs' := by
  simp [steps]

lemma Alone.steps (hp : Alone refresh answer a c p) {hs : List Happening}
    (hagree : ∀ h ∈ hs, h.Agrees refresh answer) :
    Alone refresh answer a (Push.steps c p hs).1 (Push.steps c p hs).2 := by
  induction hs generalizing c p with
  | nil => exact hp
  | cons h hs ih =>
    rw [steps_cons]
    have hh := hagree h (.head _)
    exact ih (hp.step hh) fun h' hmem => hagree h' (.tail _ hmem)

/-! ### The end is reached -/

lemma result?_of_stage {r : Except Error PushOutcome} (h : p.stage = .ended r) :
    p.result? = some r := by
  rw [result?, h]

lemma steps_told_ended (c : Coordinator) (n : Nat) {r : Except Error PushOutcome}
    (h : p.stage = .ended r) : steps c p (List.replicate n .told) = (c, p) := by
  induction n with
  | zero => rfl
  | succ n ih =>
    have hpass : p.step c .told = (c, p) := by
      simp only [Push.step, afterTold, h]
    rw [List.replicate_succ, steps_cons, hpass]
    exact ih

/-- When the answer has come, the push tells the fractions that are left and is over. -/
lemma ended_drain (c : Coordinator) (p : Push) (payload : Payload) (answer : CommitAnswer) {n : Nat}
    (hn : p.queue.length < n) :
    ∃ r, (steps c (p.drain payload answer) (List.replicate n .told)).2.stage = .ended r := by
  induction hq : p.queue generalizing p n with
  | nil =>
    obtain ⟨m, rfl⟩ : ∃ m, n = m + 1 := ⟨n - 1, by omega⟩
    have hsettle : p.drain payload answer = p.settle payload answer := by rw [drain, hq]
    have hlast : ∃ r, ((p.settle payload answer).step c .told).2.stage = .ended r := by
      cases answer with
      | error e => exact ⟨.error e, rfl⟩
      | ok response =>
        rw [settle]
        split
        · exact ⟨_, rfl⟩
        · exact ⟨_, rfl⟩
    obtain ⟨r, hr⟩ := hlast
    rw [hsettle, List.replicate_succ, steps_cons, steps_told_ended _ m hr]
    exact ⟨r, hr⟩
  | cons f fs ih =>
    rw [hq, List.length_cons] at hn
    obtain ⟨m, rfl⟩ : ∃ m, n = m + 1 := ⟨n - 1, by omega⟩
    rw [List.replicate_succ, steps_cons, drain, hq]
    exact ih _ (Nat.lt_of_succ_lt_succ hn) rfl

/-- The push comes to its end if it gets what it waits for. -/
def CanEnd (refresh : Except Error Unit) (answer : CommitAnswer) (c : Coordinator) (p : Push) :
    Prop :=
  ∃ more, (∀ h ∈ more, h.Agrees refresh answer) ∧ (steps c p more).2.result?.isSome

lemma CanEnd.of_step {h : Happening} (hh : h.Agrees refresh answer)
    (hend : CanEnd refresh answer (p.step c h).1 (p.step c h).2) : CanEnd refresh answer c p := by
  obtain ⟨more, hagree, hresult⟩ := hend
  refine ⟨h :: more, ?_, hresult⟩
  intro h' hmem
  rcases List.mem_cons.1 hmem with rfl | hmem
  · exact hh
  · exact hagree h' hmem

lemma CanEnd.of_ended {r : Except Error PushOutcome} (h : p.stage = .ended r) :
    CanEnd refresh answer c p := by
  refine ⟨[], fun h hmem => absurd hmem List.not_mem_nil, ?_⟩
  rw [steps, List.foldl_nil, result?_of_stage h]
  rfl

lemma CanEnd.of_drain (payload : Payload) (answer' : CommitAnswer) :
    CanEnd refresh answer c (p.drain payload answer') := by
  obtain ⟨r, hr⟩ := ended_drain c p payload answer' (Nat.lt_succ_self _)
  refine ⟨_, ?_, by rw [result?_of_stage hr]; rfl⟩
  intro h hmem
  rw [List.eq_of_mem_replicate hmem]
  trivial

/-- From the last stage to the first, each leads on to one that comes to its end. -/
lemma canEnd_failing {e : Error} (hs : p.stage = .failing e) : CanEnd refresh answer c p := by
  refine CanEnd.of_step (h := .told) trivial ?_
  simp only [Push.step, afterTold, hs]
  exact CanEnd.of_ended rfl

lemma canEnd_uploading {payload : Payload} (hs : p.stage = .uploading payload) :
    CanEnd refresh answer c p := by
  refine CanEnd.of_step (h := .answered answer) rfl ?_
  simp only [Push.step, hs]
  exact CanEnd.of_drain payload answer

lemma canEnd_refreshing {payload : Payload} (hs : p.stage = .refreshing payload) :
    CanEnd refresh answer c p := by
  refine CanEnd.of_step (h := .refreshed refresh) rfl ?_
  cases refresh with
  | error e =>
    simp only [Push.step, hs]
    exact canEnd_failing rfl
  | ok =>
    simp only [Push.step, hs]
    refine CanEnd.of_step (h := .told) trivial ?_
    simp only [Push.step, afterTold, asking]
    exact canEnd_uploading rfl

lemma canEnd_announcingRefresh {payload : Payload} (hs : p.stage = .announcingRefresh payload) :
    CanEnd refresh answer c p := by
  refine CanEnd.of_step (h := .told) trivial ?_
  simp only [Push.step, afterTold, hs]
  exact canEnd_refreshing rfl

lemma canEnd_summing {payload : Payload} (hs : p.stage = .summing payload) :
    CanEnd refresh answer c p := by
  refine CanEnd.of_step (h := .told) trivial ?_
  simp only [Push.step, afterTold, hs]
  exact canEnd_announcingRefresh rfl

lemma canEnd_refused {e : Error} (hs : p.stage = .refused e) : CanEnd refresh answer c p := by
  refine CanEnd.of_step (h := .told) trivial ?_
  simp only [Push.step, afterTold, hs]
  exact CanEnd.of_ended rfl

lemma canEnd_encode : CanEnd refresh answer (p.encode c).1 (p.encode c).2 := by
  unfold encode
  split
  · exact canEnd_refused rfl
  · split
    · exact CanEnd.of_ended rfl
    · exact canEnd_summing rfl

/-- A push that has not been given up comes to its end. -/
lemma canEnd (c : Coordinator) (hp : p.stage ≠ .abandoned) : CanEnd refresh answer c p := by
  cases hs : p.stage with
  | starting =>
    refine CanEnd.of_step (h := .told) trivial ?_
    simp only [Push.step, afterTold, hs]
    exact canEnd_encode
  | refused e => exact canEnd_refused hs
  | summing payload => exact canEnd_summing hs
  | announcingRefresh payload => exact canEnd_announcingRefresh hs
  | refreshing payload => exact canEnd_refreshing hs
  | announcingUpload payload =>
    refine CanEnd.of_step (h := .told) trivial ?_
    simp only [Push.step, afterTold, hs]
    exact canEnd_uploading rfl
  | uploading payload => exact canEnd_uploading hs
  | reporting payload =>
    refine CanEnd.of_step (h := .told) trivial ?_
    simp only [Push.step, afterTold, hs]
    exact canEnd_uploading rfl
  | draining payload x =>
    refine CanEnd.of_step (h := .told) trivial ?_
    simp only [Push.step, afterTold, hs]
    exact CanEnd.of_drain payload x
  | failing e => exact canEnd_failing hs
  | finishing o =>
    refine CanEnd.of_step (h := .told) trivial ?_
    simp only [Push.step, afterTold, hs]
    exact CanEnd.of_ended rfl
  | ended r => exact CanEnd.of_ended hs
  | abandoned => exact absurd hs hp

/-! ### The main result -/

/-- The failures that a push has told. -/
def failures (p : Push) : List Error := p.events.filterMap Event.failure?

/-- The push has told the failure that is its result, once and last; a push that has not failed
has told none, and the last phase last. -/
def ResultTold (p : Push) : Except Error PushOutcome → Prop
  | .error e => p.failures = [e] ∧ p.events.getLast? = some (.failure e)
  | .ok _ => p.failures = [] ∧ p.events.getLast? = some (.phase .complete)

lemma failures_told (fs : List Binary64) :
    ((told fs).filterMap Demand.event?).filterMap Event.failure? = [] := by
  induction fs with
  | nil => rfl
  | cons f fs ih => exact ih

lemma Account.resultTold {r : Except Error PushOutcome}
    (h : Account a refresh answer p.area p.history r) : p.ResultTold r := by
  unfold Account at h
  split at h
  · obtain ⟨rfl, -, hhist⟩ := h
    rw [ResultTold, failures, events, hhist]
    exact ⟨rfl, rfl⟩
  · split at h
    · obtain ⟨rfl, -, hhist⟩ := h
      rw [ResultTold, failures, events, hhist]
      exact ⟨rfl, rfl⟩
    · obtain ⟨rfl, -, fs, hhist⟩ := h
      rw [ResultTold, failures, events, hhist, List.filterMap_append, List.filterMap_append]
      constructor
      · rw [List.filterMap_append, List.filterMap_append, failures_told]
        rfl
      · rw [List.getLast?_append]
        rfl
    · obtain ⟨rfl, -, fs, hhist⟩ := h
      rw [ResultTold, failures, events, hhist, List.filterMap_append, List.filterMap_append]
      constructor
      · rw [List.filterMap_append, List.filterMap_append, failures_told]
        rfl
      · rw [List.getLast?_append]
        rfl

/-- Whatever happens to a push that is alone and not given up, in whatever order: it can come to
its end, and when it is over the coordinator is idle, its result, its staging area and what it
asked for belong together, and it has told its failure once and last, if it failed. -/
theorem protocol (a : StagingArea) (refresh : Except Error Unit) (answer : CommitAnswer)
    (hs : List Happening) (hagree : ∀ h ∈ hs, h.Agrees refresh answer) :
    (∃ more, (∀ h ∈ more, h.Agrees refresh answer) ∧
      (steps .idle (start .idle a) (hs ++ more)).2.result?.isSome) ∧
    ∀ r, (steps .idle (start .idle a) hs).2.result? = some r →
      (steps .idle (start .idle a) hs).1 = .idle ∧
      Account a refresh answer (steps .idle (start .idle a) hs).2.area
        (steps .idle (start .idle a) hs).2.history r ∧
      (steps .idle (start .idle a) hs).2.ResultTold r := by
  have halone := (alone_start a).steps hagree
  constructor
  · have hend : CanEnd refresh answer _ _ := canEnd (steps .idle (start .idle a) hs).1 halone.kept
    obtain ⟨more, hmore, hresult⟩ := hend
    exact ⟨more, hmore, by rw [steps_append]; exact hresult⟩
  · intro r hr
    have hs := stage_of_result? hr
    have hcourse := halone.course
    rw [IsOnCourse, hs] at hcourse
    refine ⟨Coordinator.eq_idle ?_, hcourse.account, hcourse.account.resultTold⟩
    rw [halone.slot, hs]
    rfl

/-- An upload in one section and a deletion in another one. -/
def oneUpload : StagingArea :=
  let core : SectionAddress := ⟨"stable", "core", "x86_64"⟩
  ⟨[⟨⟨"stable/core/x86_64"⟩, .ofPatch (.add (.ofList
      [("gcc", ⟨"gcc", core, some ⟨.ofString "/gcc"⟩, some ⟨.ofString "/gcc.sig"⟩⟩)]))⟩,
    ⟨⟨"stable/extra/x86_64"⟩, .ofPatch (.delete ["vim"])⟩]⟩

/-- Their push, which is told a fraction while the payload is sent and one after the answer. -/
theorem protocol_two_fractions :
    let answer : CommitAnswer := .ok ⟨some "ok", none⟩
    let hs : List Happening := [.told, .told, .told, .refreshed (.ok ()), .told, .sent 1 4, .heard,
      .told, .sent 3 4, .answered answer, .told, .told]
    (∀ h ∈ hs, h.Agrees (.ok ()) answer) ∧
      (steps .idle (start .idle oneUpload) hs).2.result? = some (.ok ⟨2, 1, true⟩) ∧
      (steps .idle (start .idle oneUpload) hs).2.area = .empty ∧
      Account oneUpload (.ok ()) answer (steps .idle (start .idle oneUpload) hs).2.area
        (steps .idle (start .idle oneUpload) hs).2.history (.ok ⟨2, 1, true⟩) := by
  intro answer hs
  have hagree : ∀ h ∈ hs, h.Agrees (.ok ()) answer := by
    simp [hs, Happening.Agrees]
  have hresult : (steps .idle (start .idle oneUpload) hs).2.result? = some (.ok ⟨2, 1, true⟩) := by
    decide +kernel
  have harea : (steps .idle (start .idle oneUpload) hs).2.area = .empty := by decide +kernel
  exact ⟨hagree, hresult, harea, ((protocol oneUpload (.ok ()) answer hs hagree).2 _ hresult).2.1⟩

end Push

end PackageStaging
