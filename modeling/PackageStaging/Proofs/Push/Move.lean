/-
# The moves of a push

`Push.step` decides by the stage of a push what becomes of it when something happens.  Here the
same is said by a relation with one constructor for each thing that a push can do.
`Push.move_step` says that `step` does nothing else; whatever is to be shown of every step is
shown of every constructor of `Push.Move`, and `step` itself is not opened again.
-/
import Mathlib.Tactic.Lemma
import PackageStaging.Push.Stage

namespace PackageStaging

lemma Coordinator.eq_idle {c : Coordinator} (h : c.isInFlight = false) : c = .idle := by
  cases c with
  | idle => rfl
  | inFlight f => simp [isInFlight] at h

namespace Push

/-- What the answer to a commit means for the push: the failure that it is, if it is one. -/
def verdict : CommitAnswer → Except Error Unit
  | .error e => .error e
  | .ok response =>
    if response.isOk then .ok () else .error (.backend ("commit rejected: " ++ response.describe))

/-- The answer that is good is that of a server which has done the commit. -/
lemma verdict_eq_ok {x : CommitAnswer} (h : verdict x = .ok ()) :
    ∃ response, x = .ok response ∧ response.isOk = true := by
  cases x with
  | error e => cases h
  | ok response =>
    rw [verdict] at h
    split at h
    · next hok => exact ⟨response, rfl, hok⟩
    · cases h

variable {c : Coordinator} {p : Push} {h : Happening} {e : Error} {payload : Payload}
  {answer : CommitAnswer}

/-- The push takes up the answer to its commit: when it comes, or after a fraction has been
told. -/
def TakesUp (p : Push) (h : Happening) (payload : Payload) (answer : CommitAnswer) : Prop :=
  (p.stage = .uploading payload ∧ h = .answered answer) ∨
    (p.stage = .draining payload answer ∧ h = .told)

/-- One move of a push: from the coordinator and the push before it, by what happens, to those
after it. -/
inductive Move : Coordinator → Push → Happening → Coordinator → Push → Prop
  /-- What happens is out of turn. -/
  | pass (c : Coordinator) (p : Push) (h : Happening) : Move c p h c p
  /-- The staging area cannot be encoded. -/
  | refuse {c : Coordinator} {p : Push} {e : Error} (hs : p.stage = .starting)
      (he : Payload.encode p.area = .error e) :
      Move c p .told c (p.asking (.refused e) (.tell (.failure e)))
  /-- The slot is taken by another push. -/
  | turnAway {f : Binary64} {p : Push} {payload : Payload} (hs : p.stage = .starting)
      (he : Payload.encode p.area = .ok payload) :
      Move (.inFlight f) p .told (.inFlight f) (p.ending (.error .pushInFlight))
  /-- The push takes the slot. -/
  | begin {p : Push} {payload : Payload} (hs : p.stage = .starting)
      (he : Payload.encode p.area = .ok payload) :
      Move .idle p .told (.inFlight .zero)
        (p.asking (.summing payload) (.tell (.message (summary payload.packageCount p.area.size))))
  /-- The refusal has been told. -/
  | giveUp {c : Coordinator} {p : Push} {e : Error} (hs : p.stage = .refused e) :
      Move c p .told c (p.ending (.error e))
  /-- The summary has been told. -/
  | announceRefresh {c : Coordinator} {p : Push} {payload : Payload}
      (hs : p.stage = .summing payload) :
      Move c p .told c (p.asking (.announcingRefresh payload) (.tell (.phase .refreshing)))
  /-- The session is to be refreshed. -/
  | callRefresh {c : Coordinator} {p : Push} {payload : Payload}
      (hs : p.stage = .announcingRefresh payload) :
      Move c p .told c (p.asking (.refreshing payload) .refresh)
  /-- The session has been refreshed. -/
  | announceUpload {c : Coordinator} {p : Push} {payload : Payload}
      (hs : p.stage = .refreshing payload) :
      Move c p (.refreshed (.ok ())) c
        (p.asking (.announcingUpload payload) (.tell (.phase .uploading)))
  /-- The session could not be refreshed. -/
  | failRefresh {c : Coordinator} {p : Push} {payload : Payload} {e : Error}
      (hs : p.stage = .refreshing payload) :
      Move c p (.refreshed (.error e)) c (p.fail e)
  /-- The payload is to be sent. -/
  | callCommit {c : Coordinator} {p : Push} {payload : Payload}
      (hs : p.stage = .announcingUpload payload) :
      Move c p .told c (p.asking (.uploading payload) (.commit payload))
  /-- A greater fraction is taken down. -/
  | note {f : Binary64} {p : Push} {bytes total : Nat} (hp : p.payload?.isSome)
      (hf : f < Coordinator.fraction bytes total) :
      Move (.inFlight f) p (.sent bytes total) (.inFlight (Coordinator.fraction bytes total))
        { p with queue := p.queue ++ [Coordinator.fraction bytes total] }
  /-- A fraction is told while the payload is being sent. -/
  | report {c : Coordinator} {p : Push} {payload : Payload} {f : Binary64} {fs : List Binary64}
      (hs : p.stage = .uploading payload) (hq : p.queue = f :: fs) :
      Move c p .heard c ({ p with queue := fs }.asking (.reporting payload) (.tell (.progress f)))
  /-- The fraction has been told. -/
  | resume {c : Coordinator} {p : Push} {payload : Payload} (hs : p.stage = .reporting payload) :
      Move c p .told c { p with stage := .uploading payload }
  /-- A fraction is told after the answer has come. -/
  | drain {c : Coordinator} {p : Push} {h : Happening} {payload : Payload} {answer : CommitAnswer}
      {f : Binary64} {fs : List Binary64} (hs : p.TakesUp h payload answer)
      (hq : p.queue = f :: fs) :
      Move c p h c
        ({ p with queue := fs }.asking (.draining payload answer) (.tell (.progress f)))
  /-- The answer was a failure. -/
  | reject {c : Coordinator} {p : Push} {h : Happening} {payload : Payload}
      {answer : CommitAnswer} {e : Error} (hs : p.TakesUp h payload answer)
      (hv : verdict answer = .error e) : Move c p h c (p.fail e)
  /-- The commit was accepted. -/
  | accept {c : Coordinator} {p : Push} {h : Happening} {payload : Payload}
      {answer : CommitAnswer} (hs : p.TakesUp h payload answer) (hv : verdict answer = .ok ()) :
      Move c p h c ({ p with area := .empty }.asking
        (.finishing ⟨p.area.size, payload.packageCount, true⟩) (.tell (.phase .complete)))
  /-- The failure has been told. -/
  | endFailed {c : Coordinator} {p : Push} {e : Error} (hs : p.stage = .failing e) :
      Move c p .told .idle (p.ending (.error e))
  /-- The last phase has been announced. -/
  | endFinished {c : Coordinator} {p : Push} {o : PushOutcome} (hs : p.stage = .finishing o) :
      Move c p .told .idle (p.ending (.ok o))
  /-- The push is given up, and its slot with it. -/
  | abandonSlot {c : Coordinator} {p : Push} (hs : p.stage.holdsSlot = true) :
      Move c p .dropped .idle { p with stage := .abandoned }
  /-- The push is given up before it had the slot. -/
  | abandon {c : Coordinator} {p : Push} (hs : p.stage.holdsSlot = false)
      (hr : ∀ r, p.stage ≠ .ended r) : Move c p .dropped c { p with stage := .abandoned }

lemma TakesUp.holdsSlot (ht : p.TakesUp h payload answer) : p.stage.holdsSlot = true := by
  rcases ht with ⟨hs, -⟩ | ⟨hs, -⟩
  · rw [hs]; rfl
  · rw [hs]; rfl

lemma move_encode (hs : p.stage = .starting) : Move c p .told (p.encode c).1 (p.encode c).2 := by
  unfold encode
  cases he : Payload.encode p.area with
  | error e => exact .refuse hs he
  | ok payload =>
    cases c with
    | idle => exact .begin hs he
    | inFlight f => exact .turnAway hs he

lemma move_drain (hs : p.TakesUp h payload answer) : Move c p h c (p.drain payload answer) := by
  unfold drain
  cases hq : p.queue with
  | cons f fs => exact .drain hs hq
  | nil =>
    cases answer with
    | error e => exact .reject hs rfl
    | ok response =>
      simp only [settle]
      split
      · next hok => exact .accept hs (by simp [verdict, hok])
      · next hok => exact .reject hs (by simp [verdict, hok])

lemma move_afterTold (c : Coordinator) (p : Push) :
    Move c p .told (p.afterTold c).1 (p.afterTold c).2 := by
  unfold afterTold
  split
  · next hs => exact move_encode hs
  · next hs => exact .giveUp hs
  · next hs => exact .announceRefresh hs
  · next hs => exact .callRefresh hs
  · next hs => exact .callCommit hs
  · next hs => exact .resume hs
  · next hs => exact move_drain (.inr ⟨hs, rfl⟩)
  · next hs => exact .endFailed hs
  · next hs => exact .endFinished hs
  · exact .pass c p .told

/-- Every step of a push is one of its moves. -/
theorem move_step (c : Coordinator) (p : Push) (h : Happening) :
    Move c p h (p.step c h).1 (p.step c h).2 := by
  cases h with
  | told => exact move_afterTold c p
  | refreshed result =>
    simp only [step]
    split
    · next hs => exact .announceUpload hs
    · next hs => exact .failRefresh hs
    · exact .pass ..
  | sent bytes total =>
    simp only [step]
    split
    · next hp =>
      cases c with
      | idle => simpa using Move.pass .idle p (.sent bytes total)
      | inFlight f =>
        simp only [Coordinator.record]
        split
        · next hf => simpa using Move.note hp hf
        · simpa using Move.pass (.inFlight f) p (.sent bytes total)
    · exact .pass ..
  | heard =>
    simp only [step]
    split
    · next hs hq => exact .report hs hq
    · exact .pass ..
  | answered answer =>
    simp only [step]
    split
    · next hs => exact move_drain (.inl ⟨hs, rfl⟩)
    · exact .pass ..
  | dropped =>
    simp only [step]
    split
    · exact .pass ..
    · next hr =>
      cases hs : p.stage.holdsSlot with
      | true => exact .abandonSlot hs
      | false => exact .abandon hs hr

lemma stage_of_result? {r : Except Error PushOutcome} (h : p.result? = some r) :
    p.stage = .ended r := by
  unfold result? at h
  split at h
  · next hs => rw [hs, Option.some.inj h]
  · exact nomatch h

variable {c' : Coordinator} {p' : Push}

/-- A move leaves the slot, takes it when it is free, or gives back what the push holds. -/
lemma Move.slot (m : Move c p h c' p') :
    (p'.stage.holdsSlot = p.stage.holdsSlot ∧ c'.isInFlight = c.isInFlight) ∨
      (p.stage.holdsSlot = false ∧ c.isInFlight = false ∧
        p'.stage.holdsSlot = true ∧ c'.isInFlight = true) ∨
      (p.stage.holdsSlot = true ∧ p'.stage.holdsSlot = false ∧ c'.isInFlight = false) := by
  cases m with
  | pass => exact .inl ⟨rfl, rfl⟩
  | refuse hs => exact .inl ⟨by rw [hs]; rfl, rfl⟩
  | turnAway hs => exact .inl ⟨by rw [hs]; rfl, rfl⟩
  | begin hs => exact .inr (.inl ⟨by rw [hs]; rfl, rfl, rfl, rfl⟩)
  | giveUp hs => exact .inl ⟨by rw [hs]; rfl, rfl⟩
  | announceRefresh hs => exact .inl ⟨by rw [hs]; rfl, rfl⟩
  | callRefresh hs => exact .inl ⟨by rw [hs]; rfl, rfl⟩
  | announceUpload hs => exact .inl ⟨by rw [hs]; rfl, rfl⟩
  | failRefresh hs => exact .inl ⟨by rw [hs]; rfl, rfl⟩
  | callCommit hs => exact .inl ⟨by rw [hs]; rfl, rfl⟩
  | note => exact .inl ⟨rfl, rfl⟩
  | report hs => exact .inl ⟨by rw [hs]; rfl, rfl⟩
  | resume hs => exact .inl ⟨by rw [hs]; rfl, rfl⟩
  | drain hs => exact .inl ⟨by rw [hs.holdsSlot]; rfl, rfl⟩
  | reject hs => exact .inl ⟨by rw [hs.holdsSlot]; rfl, rfl⟩
  | accept hs => exact .inl ⟨by rw [hs.holdsSlot]; rfl, rfl⟩
  | endFailed hs => exact .inr (.inr ⟨by rw [hs]; rfl, rfl, rfl⟩)
  | endFinished hs => exact .inr (.inr ⟨by rw [hs]; rfl, rfl, rfl⟩)
  | abandonSlot hs => exact .inr (.inr ⟨hs, rfl, rfl⟩)
  | abandon hs => exact .inl ⟨hs.symm, rfl⟩

end Push

end PackageStaging
