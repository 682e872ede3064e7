/-
# Pushes with a client

A push that is given what it waits for, by a client and by one who watches it, is over at the end
(`ends_run`); if it went well, its staging area has been published and is empty.
-/
import PackageStaging.Proofs.Push.Acceptance
import PackageStaging.Proofs.Push.Protocol

namespace PackageStaging.Push

open Attempt

variable {R : Except Error Unit → Prop} {A : CommitAnswer → Prop} {a : StagingArea}
  {c : Coordinator} {p : Push} {watch : Event → Attempt Unit} {s : Coordinator × Push}
  {payload : Payload}

/-- A push that meets no answers but these is kept on its course. -/
lemma isOnCourse_steps (h : IsOnCourse True R A a p) {hs : List Happening}
    (hR : ∀ r, .refreshed r ∈ hs → R r) (hA : ∀ x, .answered x ∈ hs → A x) :
    IsOnCourse True R A a (Push.steps c p hs).2 := by
  induction hs generalizing c p with
  | nil => exact h
  | cons happening hs ih =>
    rw [steps_cons]
    refine ih ((move_step c p happening).course h (fun _ _ => trivial) ?_ ?_)
      (fun r hr => hR r (.tail _ hr)) fun x hx => hA x (.tail _ hx)
    · rintro r payload rfl -
      exact hR r (.head _)
    · rintro x payload rfl -
      exact hA x (.head _)

/-- A push of the area `a` that may have met any answers. -/
abbrev IsPushOf (a : StagingArea) (p : Push) : Prop :=
  IsOnCourse True (fun _ => True) (fun _ => True) a p

lemma IsPushOf.steps (h : IsPushOf a p) (hs : List Happening) :
    IsPushOf a (Push.steps c p hs).2 :=
  isOnCourse_steps h (fun _ _ => trivial) fun _ _ => trivial

/-- A push that went well has emptied its staging area, after one of its answers was good. -/
lemma answered_of_ended (h : IsOnCourse True R A a p) {o : PushOutcome}
    (ho : p.stage = .ended (.ok o)) :
    p.area = .empty ∧ ∃ answer, A answer ∧ verdict answer = .ok () := by
  obtain ⟨b, stage, queue, hist⟩ := p
  change stage = _ at ho
  change Course _ _ _ a stage b hist at h
  subst ho
  cases h with
  | finished h =>
    cases h with
    | finishing fs he hr ha hv => exact ⟨rfl, _, ha, hv⟩

/-- A push whose payload is being sent can still meet any answers. -/
lemma isOnCourse_of_uploading (h : IsPushOf a p) (hs : p.stage = .uploading payload) :
    Payload.encode a = .ok payload ∧ IsOnCourse True (fun _ => True) A a p := by
  obtain ⟨b, stage, queue, hist⟩ := p
  change stage = _ at hs
  change Course _ _ _ a stage b hist at h
  subst hs
  cases h with
  | uploading fs he hr => exact ⟨he, .uploading fs he hr⟩

/-! ### The stages of a push with a client -/

/-- A push that has no fractions to tell has failed, or waits in one of these stages. -/
def Waits (a : StagingArea) (stages : Payload → Stage) (p : Push) : Prop :=
  IsPushOf a p ∧ p.queue = [] ∧
    ((∃ e, p.stage = .ended (.error e)) ∨ ∃ payload, p.stage = stages payload)

lemma waits_refreshing (a : StagingArea) :
    Waits a .refreshing (steps .idle (start .idle a) [.told, .told, .told]).2 := by
  refine ⟨IsPushOf.steps (isOnCourse_start .idle a fun h => nomatch h) _, ?_⟩
  have hstart : start .idle a = ⟨a, .starting, [], [.tell (.phase .encoding)]⟩ := rfl
  rw [hstart, steps_cons, Push.step, afterTold, encode]
  cases he : Payload.encode a with
  | error e => exact ⟨rfl, .inl ⟨e, rfl⟩⟩
  | ok payload => exact ⟨rfl, .inr ⟨payload, rfl⟩⟩

lemma waits_uploading (hp : Waits a .refreshing p) (hs : p.stage = .refreshing payload)
    (result : Except Error Unit) :
    Waits a .uploading (steps c p [.refreshed result, .told]).2 := by
  obtain ⟨hpush, hqueue, -⟩ := hp
  refine ⟨hpush.steps _, ?_⟩
  cases result with
  | error e =>
    simp only [steps_cons, Push.step, hs]
    exact ⟨hqueue, .inl ⟨e, rfl⟩⟩
  | ok u =>
    simp only [steps_cons, Push.step, hs]
    exact ⟨hqueue, .inr ⟨payload, rfl⟩⟩

/-- The bytes that are sent are taken down one after the other. -/
lemma steps_sent (hs : p.stage = .uploading payload) (reports : List Http.SendingProgress) :
    (steps c p (reports.map fun r => .sent r.sent r.total)).2.stage = .uploading payload ∧
      (steps c p (reports.map fun r => .sent r.sent r.total)).2.queue.length ≤
        p.queue.length + reports.length := by
  induction reports generalizing c p with
  | nil => exact ⟨hs, Nat.le_refl _⟩
  | cons r reports ih =>
    have hone : (p.step c (.sent r.sent r.total)).2.stage = .uploading payload ∧
        (p.step c (.sent r.sent r.total)).2.queue.length ≤ p.queue.length + 1 := by
      rw [Push.step]
      split_ifs
      · refine ⟨hs, ?_⟩
        show (p.queue ++ (c.record r.sent r.total).2.toList).length ≤ _
        rw [List.length_append]
        cases (c.record r.sent r.total).2 with
        | none => simp
        | some f => simp
      · exact ⟨hs, Nat.le_succ _⟩
    obtain ⟨hstage, hlength⟩ := hone
    obtain ⟨hlast, hall⟩ := ih (c := (p.step c (.sent r.sent r.total)).1) hstage
    rw [List.map_cons, steps_cons, List.length_cons]
    exact ⟨hlast, by omega⟩

/-- Once the answer has come and all that was taken down has been told, the push is over. -/
lemma ended_sending (hs : p.stage = .uploading payload) (hqueue : p.queue = [])
    (reports : List Http.SendingProgress) (answer : CommitAnswer) :
    ∃ r, (steps c p (sending reports answer)).2.stage = .ended r := by
  obtain ⟨hstage, hlength⟩ := steps_sent (c := c) hs reports
  rw [hqueue, List.length_nil, Nat.zero_add] at hlength
  rw [sending, steps_append, steps_cons, Push.step, hstage]
  exact ended_drain _ _ payload answer (Nat.lt_succ_of_le hlength)

/-! ### The whole push -/

lemma gives_attend (watch : Event → Attempt Unit) (s : Coordinator × Push)
    (hs : List Happening) : Gives (· = steps s.1 s.2 hs) (attend watch s hs) :=
  (gives_any _).bind fun _ _ => gives_pure rfl

lemma gives_runRefresh (watch : Event → Attempt Unit) (c : Client)
    (hs : Waits a .refreshing s.2) :
    Gives (fun v => Waits a .uploading v.2.2) (runRefresh watch c s) := by
  unfold runRefresh
  split
  · next payload hstage =>
    refine (gives_any _).bind fun r _ => ?_
    refine (gives_attend watch s _).bind fun s' hs' => gives_pure ?_
    subst hs'
    exact waits_uploading hs hstage r.2
  · next hstage =>
    obtain ⟨hpush, hqueue, hfailed | ⟨payload, hpayload⟩⟩ := hs
    · exact gives_pure ⟨hpush, hqueue, .inl hfailed⟩
    · exact absurd hpayload (hstage payload)

/-- The push is over, and if it went well its area has been published and emptied. -/
def Over (a : StagingArea) (p : Push) (w : World) : Prop :=
  ∃ r, p.result? = some r ∧ ∀ o, r = .ok o → p.area = .empty ∧ w.Published a

lemma ends_runCommit (watch : Event → Attempt Unit) (c : Client) (hs : Waits a .uploading s.2) :
    Ends (fun v w => Over a v.2 w) (runCommit watch c s) := by
  unfold runCommit
  split
  · next payload hstage =>
    refine (Client.ends_commit c payload).bind fun r w hr v w' hrun => ?_
    have hrequests := requests_exec (attend watch s (sending r.1 r.2)) w
    rw [hrun] at hrequests
    rw [gives_attend watch s _ w v w' hrun]
    obtain ⟨result, hresult⟩ := ended_sending (c := s.1) hstage hs.2.1 r.1 r.2
    refine ⟨result, result?_of_stage hresult, ?_⟩
    rintro o rfl
    -- the only answer that the push meets is that of the client
    obtain ⟨hencode, hcourse⟩ := isOnCourse_of_uploading (A := (· = r.2)) hs.1 hstage
    have honly : ∀ x, .answered x ∈ sending r.1 r.2 → x = r.2 := by simp [sending]
    have hafter := isOnCourse_steps (c := s.1) hcourse (fun _ _ => trivial) honly
    obtain ⟨hempty, answer, rfl, hverdict⟩ := answered_of_ended hafter hresult
    exact ⟨hempty, payload, hencode, (hr hverdict).mono hrequests⟩
  · next hstage =>
    obtain ⟨hpush, hqueue, ⟨e, he⟩ | ⟨payload, hpayload⟩⟩ := hs
    · exact ends_pure fun _ => ⟨.error e, result?_of_stage he, fun o ho => nomatch ho⟩
    · exact absurd hpayload (hstage payload)

/-- A push itself never fails; what it comes to is its result. -/
lemma succeeds_run (hwatch : ∀ e, Succeeds (watch e)) (c : Client) (a : StagingArea) :
    Succeeds (run watch c a) := by
  have hattend : ∀ p hs, Succeeds (attend watch p hs) := fun p hs =>
    (succeeds_forM fun e _ => hwatch e).bind fun _ => succeeds_pure _
  have hrefreshed : Succeeds (refreshed c) := by
    refine (succeeds_outcome _).bind fun r => ?_
    split
    · exact succeeds_pure _
    · exact succeeds_pure _
  refine (succeeds_forM fun e _ => hwatch e).bind fun _ => (hattend _ _).bind fun p => ?_
  refine Succeeds.bind ?_ fun v => Succeeds.bind ?_ fun _ => succeeds_pure _
  · unfold runRefresh
    split
    · exact hrefreshed.bind fun _ => (hattend _ _).bind fun _ => succeeds_pure _
    · exact succeeds_pure _
  · unfold runCommit
    split
    · exact (Client.succeeds_commit _ _).bind fun _ => hattend _ _
    · exact succeeds_pure _

/-- A push is over at the end; if it went well its staging area has been published and emptied. -/
theorem ends_run (watch : Event → Attempt Unit) (c : Client) (a : StagingArea) :
    Ends (fun v w => Over a v.2 w) (run watch c a) := by
  refine (gives_any _).bind_ends fun _ _ => ?_
  refine (gives_attend watch _ _).bind_ends fun s hs => ?_
  -- the push is told three times, which brings it to the refresh, or to its end
  have hwaits : Waits a .refreshing s.2 := by
    rw [hs]
    exact waits_refreshing a
  refine (gives_runRefresh watch c hwaits).bind_ends fun v hv => ?_
  refine (ends_runCommit watch v.1 hv).bind fun s' w hover v' w' hrun => ?_
  obtain ⟨rfl, rfl⟩ := exec_pure_inj hrun
  exact hover

end PackageStaging.Push
