/-
# The course of a push

What a push has asked for and what has become of its staging area follows from its stage and from
the answers that it got.  `Push.Course` says so, one constructor for each stage; it is kept by
every move (`Push.Move.course`), whatever else happens on the coordinator.  The answers are given
by two predicates: the results with which the refresh came back and the answers to the commit.
-/
import PackageStaging.Proofs.Payload.Encoding
import PackageStaging.Proofs.Push.Move

namespace PackageStaging.Push

/-- What a push asks for up to its commit, if all goes well. -/
def demands (a : StagingArea) (payload : Payload) : List Demand :=
  [.tell (.phase .encoding), .tell (.message (summary payload.packageCount a.size)),
    .tell (.phase .refreshing), .refresh, .tell (.phase .uploading), .commit payload]

/-- Fractions as they are told. -/
def told (fs : List Binary64) : List Demand := fs.map fun f => .tell (.progress f)

@[simp] lemma told_append (fs gs : List Binary64) : told (fs ++ gs) = told fs ++ told gs :=
  List.map_append

/-- The stage of a push, its staging area and what it has asked for, when it has been started with
the area `a`, has been refreshed with one of the results `R` and answered with one of the
answers `A`; `T` says whether it may have met another push. -/
inductive Course (T : Prop) (R : Except Error Unit → Prop) (A : CommitAnswer → Prop)
    (a : StagingArea) : Stage → StagingArea → List Demand → Prop
  | starting : Course T R A a .starting a [.tell (.phase .encoding)]
  /-- The slot was taken, at the start or after the first announcement. -/
  | turnedAway {n : Nat} (ht : T) :
      Course T R A a (.ended (.error .pushInFlight)) a
        (([.tell (.phase .encoding)] : List _).take n)
  | refused {e : Error} (he : Payload.encode a = .error e) :
      Course T R A a (.refused e) a [.tell (.phase .encoding), .tell (.failure e)]
  | givenUp {e : Error} {b : StagingArea} {hist : List Demand}
      (h : Course T R A a (.refused e) b hist) : Course T R A a (.ended (.error e)) b hist
  | summing {payload : Payload} (he : Payload.encode a = .ok payload) :
      Course T R A a (.summing payload) a ((demands a payload).take 2)
  | announcingRefresh {payload : Payload} (he : Payload.encode a = .ok payload) :
      Course T R A a (.announcingRefresh payload) a ((demands a payload).take 3)
  | refreshing {payload : Payload} (he : Payload.encode a = .ok payload) :
      Course T R A a (.refreshing payload) a ((demands a payload).take 4)
  | refreshFailed {payload : Payload} {e : Error} (he : Payload.encode a = .ok payload)
      (hr : R (.error e)) :
      Course T R A a (.failing e) a ((demands a payload).take 4 ++ [.tell (.failure e)])
  | announcingUpload {payload : Payload} (he : Payload.encode a = .ok payload) (hr : R (.ok ())) :
      Course T R A a (.announcingUpload payload) a ((demands a payload).take 5)
  | uploading {payload : Payload} (fs : List Binary64) (he : Payload.encode a = .ok payload)
      (hr : R (.ok ())) : Course T R A a (.uploading payload) a (demands a payload ++ told fs)
  | reporting {payload : Payload} (fs : List Binary64) (he : Payload.encode a = .ok payload)
      (hr : R (.ok ())) : Course T R A a (.reporting payload) a (demands a payload ++ told fs)
  | draining {payload : Payload} {answer : CommitAnswer} (fs : List Binary64)
      (he : Payload.encode a = .ok payload) (hr : R (.ok ())) (ha : A answer) :
      Course T R A a (.draining payload answer) a (demands a payload ++ told fs)
  | commitFailed {payload : Payload} {answer : CommitAnswer} {e : Error} (fs : List Binary64)
      (he : Payload.encode a = .ok payload) (hr : R (.ok ())) (ha : A answer)
      (hv : verdict answer = .error e) :
      Course T R A a (.failing e) a (demands a payload ++ told fs ++ [.tell (.failure e)])
  | failed {e : Error} {b : StagingArea} {hist : List Demand}
      (h : Course T R A a (.failing e) b hist) : Course T R A a (.ended (.error e)) b hist
  | finishing {payload : Payload} {answer : CommitAnswer} (fs : List Binary64)
      (he : Payload.encode a = .ok payload) (hr : R (.ok ())) (ha : A answer)
      (hv : verdict answer = .ok ()) :
      Course T R A a (.finishing ⟨a.size, payload.packageCount, true⟩) .empty
        (demands a payload ++ told fs ++ [.tell (.phase .complete)])
  | finished {o : PushOutcome} {b : StagingArea} {hist : List Demand}
      (h : Course T R A a (.finishing o) b hist) : Course T R A a (.ended (.ok o)) b hist
  | abandoned {s : Stage} {b : StagingArea} {hist : List Demand} (h : Course T R A a s b hist)
      (hs : ∀ r, s ≠ .ended r) : Course T R A a .abandoned b hist

/-- The course of a push as it is. -/
abbrev IsOnCourse (T : Prop) (R : Except Error Unit → Prop) (A : CommitAnswer → Prop)
    (a : StagingArea) (p : Push) : Prop :=
  Course T R A a p.stage p.area p.history

variable {T T' : Prop} {R R' : Except Error Unit → Prop} {A A' : CommitAnswer → Prop}
  {a : StagingArea}

/-- More answers leave a push on its course. -/
lemma Course.mono {s : Stage} {b : StagingArea} {hist : List Demand} (h : Course T R A a s b hist)
    (hT : T → T') (hR : ∀ r, R r → R' r) (hA : ∀ x, A x → A' x) : Course T' R' A' a s b hist := by
  induction h with
  | starting => exact .starting
  | turnedAway ht => exact .turnedAway (hT ht)
  | refused he => exact .refused he
  | givenUp _ ih => exact .givenUp ih
  | summing he => exact .summing he
  | announcingRefresh he => exact .announcingRefresh he
  | refreshing he => exact .refreshing he
  | refreshFailed he hr => exact .refreshFailed he (hR _ hr)
  | announcingUpload he hr => exact .announcingUpload he (hR _ hr)
  | uploading fs he hr => exact .uploading fs he (hR _ hr)
  | reporting fs he hr => exact .reporting fs he (hR _ hr)
  | draining fs he hr ha => exact .draining fs he (hR _ hr) (hA _ ha)
  | commitFailed fs he hr ha hv => exact .commitFailed fs he (hR _ hr) (hA _ ha) hv
  | failed _ ih => exact .failed ih
  | finishing fs he hr ha hv => exact .finishing fs he (hR _ hr) (hA _ ha) hv
  | finished _ ih => exact .finished ih
  | abandoned _ hs ih => exact .abandoned ih hs

/-- A new push is on its course. -/
lemma isOnCourse_start (c : Coordinator) (a : StagingArea) (hT : c.isInFlight = true → T) :
    IsOnCourse T R A a (start c a) := by
  unfold start
  cases hc : c.isInFlight with
  | true => exact Course.turnedAway (n := 0) (hT hc)
  | false => exact .starting

/-- The answer that a push takes up is one of its answers. -/
lemma TakesUp.course {p : Push} {h : Happening} {payload : Payload} {answer : CommitAnswer}
    (ht : p.TakesUp h payload answer) (hp : IsOnCourse T R A a p)
    (hA : ∀ x, h = .answered x → p.stage = .uploading payload → A x) :
    Payload.encode a = .ok payload ∧ R (.ok ()) ∧ A answer ∧ p.area = a ∧
      ∃ fs, p.history = demands a payload ++ told fs := by
  obtain ⟨area, stage, queue, history⟩ := p
  dsimp only [IsOnCourse] at hp
  rcases ht with ⟨rfl, rfl⟩ | ⟨rfl, rfl⟩
  · have hanswer := hA answer rfl rfl
    cases hp with
    | uploading fs he hr => exact ⟨he, hr, hanswer, rfl, fs, rfl⟩
  · cases hp with
    | draining fs he hr ha => exact ⟨he, hr, ha, rfl, fs, rfl⟩

/-- Every move keeps a push on its course, if the answers that come in turn are counted. -/
theorem Move.course {c c' : Coordinator} {p p' : Push} {h : Happening} (m : Move c p h c' p')
    (hp : IsOnCourse T R A a p) (hT : p.stage = .starting → c.isInFlight = true → T)
    (hR : ∀ r payload, h = .refreshed r → p.stage = .refreshing payload → R r)
    (hA : ∀ x payload, h = .answered x → p.stage = .uploading payload → A x) :
    IsOnCourse T R A a p' := by
  -- the stage before the move determines the constructor by which the push was on its course
  obtain ⟨b, stage, queue, hist⟩ := p
  change Course T R A a stage b hist at hp
  cases m with
  | pass => exact hp
  | refuse hs he =>
    subst hs
    cases hp
    exact .refused he
  | turnAway hs he =>
    have ht := hT hs rfl
    subst hs
    cases hp
    exact Course.turnedAway (n := 1) ht
  | begin hs he =>
    subst hs
    cases hp
    exact .summing he
  | giveUp hs =>
    subst hs
    exact .givenUp hp
  | announceRefresh hs =>
    subst hs
    cases hp with
    | summing he => exact .announcingRefresh he
  | callRefresh hs =>
    subst hs
    cases hp with
    | announcingRefresh he => exact .refreshing he
  | announceUpload hs =>
    have hr := hR _ _ rfl hs
    subst hs
    cases hp with
    | refreshing he => exact .announcingUpload he hr
  | failRefresh hs =>
    have hr := hR _ _ rfl hs
    subst hs
    cases hp with
    | refreshing he => exact .refreshFailed he hr
  | callCommit hs =>
    subst hs
    cases hp with
    | announcingUpload he hr => exact Course.uploading [] he hr
  | note => exact hp
  | @report _ _ _ f _ hs _ =>
    subst hs
    cases hp with
    | uploading fs he hr =>
      have hnew := Course.reporting (T := T) (A := A) (fs ++ [f]) he hr
      rwa [told_append, ← List.append_assoc] at hnew
  | resume hs =>
    subst hs
    cases hp with
    | reporting fs he hr => exact .uploading fs he hr
  | @drain _ _ _ _ _ f _ hs _ =>
    obtain ⟨he, hr, ha, harea, fs, hhist⟩ := hs.course hp fun x => hA x _
    have hnew := Course.draining (T := T) (fs ++ [f]) he hr ha
    rw [told_append, ← List.append_assoc, ← hhist] at hnew
    exact harea.symm ▸ hnew
  | reject hs hv =>
    obtain ⟨he, hr, ha, harea, fs, hhist⟩ := hs.course hp fun x => hA x _
    have hnew := Course.commitFailed (T := T) fs he hr ha hv
    rw [← hhist] at hnew
    simpa only [IsOnCourse, fail, asking, harea] using hnew
  | accept hs hv =>
    obtain ⟨he, hr, ha, rfl, fs, hhist⟩ := hs.course hp fun x => hA x _
    have hnew := Course.finishing (T := T) fs he hr ha hv
    rw [← hhist] at hnew
    exact hnew
  | endFailed hs =>
    subst hs
    exact .failed hp
  | endFinished hs =>
    subst hs
    exact .finished hp
  | abandonSlot hs =>
    exact .abandoned hp fun r hr => by rw [hr] at hs; simp [Stage.holdsSlot] at hs
  | abandon hs hr => exact .abandoned hp hr

/-! ### What the course tells -/

/-- The push has told its summary, which it does in the move that takes the slot. -/
def HasBegun (p : Push) : Prop := ∃ t, Demand.tell (.message t) ∈ p.history

/-- A push has begun, or has asked for nothing that counts and has its staging area untouched. -/
lemma Course.begun_or {s : Stage} {b : StagingArea} {hist : List Demand}
    (h : Course T R A a s b hist) :
    (∃ t, Demand.tell (.message t) ∈ hist) ∨
      (s.holdsSlot = false ∧ b = a ∧ hist.findSome? Demand.payload? = none) := by
  induction h with
  | starting => exact .inr ⟨rfl, rfl, rfl⟩
  | @turnedAway n ht =>
    refine .inr ⟨rfl, rfl, ?_⟩
    cases n with
    | zero => rfl
    | succ n => simp [Demand.payload?]
  | refused => exact .inr ⟨rfl, rfl, rfl⟩
  | givenUp _ ih => exact ih.imp_right fun ⟨_, hb, hhist⟩ => ⟨rfl, hb, hhist⟩
  | summing | announcingRefresh | refreshing => exact .inl ⟨_, .tail _ (.head _)⟩
  | refreshFailed | announcingUpload => exact .inl ⟨_, .tail _ (.head _)⟩
  | uploading | reporting | draining => exact .inl ⟨_, .tail _ (.head _)⟩
  | commitFailed | finishing => exact .inl ⟨_, .tail _ (.head _)⟩
  | failed _ ih => exact ih.imp_right fun ⟨_, hb, hhist⟩ => ⟨rfl, hb, hhist⟩
  | finished _ ih => exact ih.imp_right fun ⟨_, hb, hhist⟩ => ⟨rfl, hb, hhist⟩
  | abandoned _ _ ih => exact ih.imp_right fun ⟨_, hb, hhist⟩ => ⟨rfl, hb, hhist⟩

/-- The staging area of a push is as it was, or has been emptied because the server accepted the
commit. -/
lemma Course.area_eq {s : Stage} {b : StagingArea} {hist : List Demand}
    (h : Course T R A a s b hist) : b = a ∨ (b = .empty ∧ ∃ x, A x ∧ verdict x = .ok ()) := by
  induction h with
  | starting | turnedAway | refused | summing | announcingRefresh | refreshing => exact .inl rfl
  | refreshFailed | announcingUpload | uploading | reporting | draining => exact .inl rfl
  | commitFailed => exact .inl rfl
  | finishing _ _ _ ha hv => exact .inr ⟨rfl, _, ha, hv⟩
  | givenUp _ ih | failed _ ih | finished _ ih | abandoned _ _ ih => exact ih

/-- The failures of pushes that come from neither the refresh nor the commit. -/
lemma Course.failure {e : Error} {b : StagingArea} {hist : List Demand}
    (h : Course T R A a (.ended (.error e)) b hist) :
    (T ∧ e = .pushInFlight ∧ b = a ∧
        ∃ n, hist = ([.tell (.phase .encoding)] : List Demand).take n) ∨
      Payload.encode a = .error e ∨ R (.error e) ∨ ∃ x, A x ∧ verdict x = .error e := by
  cases h with
  | @turnedAway n ht => exact .inl ⟨ht, rfl, rfl, n, rfl⟩
  | givenUp h =>
    cases h with
    | refused he => exact .inr (.inl he)
  | failed h =>
    cases h with
    | refreshFailed he hr => exact .inr (.inr (.inl hr))
    | commitFailed fs he hr ha hv => exact .inr (.inr (.inr ⟨_, ha, hv⟩))

end PackageStaging.Push
