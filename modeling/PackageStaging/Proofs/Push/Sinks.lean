/-
# Whose progress is shown

A push is given a sink with its commit, and whoever has the sink may call it at any time, also
when the push is over.  All sinks note what they are told in the coordinator that the pushes
share.  While a push holds the slot, what the coordinator shows is therefore the highest fraction
of all calls, and the push reports those of its own calls that are higher than all calls before
them (`Crowd.notes_run`).  This is what the push's own calls alone would come to exactly if no
call to another sink is ahead of them (`Crowd.progress_of_sinks`).
-/
import PackageStaging.Proofs.Push.Exclusion

namespace PackageStaging

/-! ### Reports -/

/-- The fraction that an event tells. -/
def Event.fraction? : Event → Option Binary64
  | .progress f => some f
  | _ => none

/-- The fractions that a push has told, and those that it is going to tell. -/
def Push.reports (p : Push) : List Binary64 := p.events.filterMap Event.fraction? ++ p.queue

namespace Push

variable {c c' : Coordinator} {p p' : Push} {h : Happening} {f : Binary64}

/-- Only a call to its sink makes a push report anything. -/
lemma Move.reports_eq_or (m : Move c p h c' p') :
    p'.reports = p.reports ∨ p.payload?.isSome ∧ ∃ bytes total, h = .sent bytes total := by
  cases m with
  | note hp => exact .inr ⟨hp, _, _, rfl⟩
  | report hs hq => simp [reports, events, asking, hq, Demand.event?, Event.fraction?]
  | drain hs hq => simp [reports, events, asking, hq, Demand.event?, Event.fraction?]
  | pass | turnAway | giveUp | resume | endFailed | endFinished => exact .inl rfl
  | abandonSlot | abandon => exact .inl rfl
  | _ => simp [reports, events, asking, fail, Demand.event?, Event.fraction?]

/-- Only a call to a sink changes what is shown while a push is running. -/
lemma Move.coordinator_eq (m : Move (.inFlight f) p h c' p')
    (hh : ∀ bytes total, h ≠ .sent bytes total) (hflight : c'.isInFlight = true) :
    c' = .inFlight f := by
  cases m with
  | note => exact absurd rfl (hh _ _)
  | endFailed | endFinished | abandonSlot => exact nomatch hflight
  | _ => rfl

/-- A push that takes the slot has only just started, and nothing is shown yet. -/
lemma Move.begins (m : Move .idle p h c' p') (hflight : c'.isInFlight = true) :
    c' = .inFlight .zero ∧ p.stage = .starting := by
  cases m with
  | begin hs he => exact ⟨rfl, hs⟩
  | _ => exact nomatch hflight

lemma reports_start (c : Coordinator) (a : StagingArea) : (start c a).reports = [] := by
  unfold start
  split_ifs
  · rfl
  · rfl

/-- A call to the sink of a push that has one. -/
lemma step_sent (hp : p.payload?.isSome) (f : Binary64) (bytes total : Nat) :
    p.step (.inFlight f) (.sent bytes total) =
      if f < Coordinator.fraction bytes total then
        (.inFlight (Coordinator.fraction bytes total),
          { p with queue := p.queue ++ [Coordinator.fraction bytes total] })
      else (.inFlight f, p) := by
  simp only [step, hp, if_true, Coordinator.record]
  split_ifs
  · rfl
  · simp

end Push

/-! ### Calls -/

/-- A call to the sink of a push. -/
structure SinkCall where
  push : Nat
  fraction : Binary64

namespace SinkCall

/-- The highest fraction of `f` and some calls. -/
def highest (f : Binary64) : List SinkCall → Binary64
  | [] => f
  | call :: calls => if f < call.fraction then highest call.fraction calls else highest f calls

/-- The calls that are higher than `f` and all calls before them. -/
def news (f : Binary64) : List SinkCall → List SinkCall
  | [] => []
  | call :: calls => if f < call.fraction then call :: news call.fraction calls else news f calls

/-- The calls to the sink of a push. -/
def own (i : Nat) (calls : List SinkCall) : List SinkCall := calls.filter fun call => call.push = i

variable {f : Binary64} {i : Nat} {calls : List SinkCall}

lemma highest_append (f : Binary64) (l r : List SinkCall) :
    highest f (l ++ r) = highest (highest f l) r := by
  induction l generalizing f with
  | nil => rfl
  | cons call l ih =>
    simp only [List.cons_append, highest]
    split_ifs
    · exact ih _
    · exact ih _

lemma news_append (f : Binary64) (l r : List SinkCall) :
    news f (l ++ r) = news f l ++ news (highest f l) r := by
  induction l generalizing f with
  | nil => rfl
  | cons call l ih =>
    simp only [List.cons_append, news, highest]
    split_ifs
    · rw [ih, List.cons_append]
    · exact ih _

lemma mem_of_mem_news {call : SinkCall} (h : call ∈ news f calls) : call ∈ calls := by
  induction calls generalizing f with
  | nil => exact h
  | cons first calls ih =>
    rw [news] at h
    split_ifs at h
    · rcases List.mem_cons.1 h with rfl | h
      · exact .head _
      · exact .tail _ (ih h)
    · exact .tail _ (ih h)

lemma own_append (i : Nat) (l r : List SinkCall) : own i (l ++ r) = own i l ++ own i r :=
  List.filter_append _ _

/-- The calls come to the same as those to the sink of one push. -/
def ComesToOwn (f : Binary64) (i : Nat) (calls : List SinkCall) : Prop :=
  highest f calls = highest f (own i calls) ∧ own i (news f calls) = news f (own i calls)

/-- One call to another sink goes unnoticed if it is not ahead. -/
lemma comesToOwn_concat (h : ComesToOwn f i calls) {call : SinkCall}
    (hcall : call.push ≠ i → ¬highest f (own i calls) < call.fraction) :
    ComesToOwn f i (calls ++ [call]) := by
  obtain ⟨hhighest, hnews⟩ := h
  rw [ComesToOwn, highest_append, news_append, own_append, own_append, highest_append, news_append,
    hhighest, hnews]
  by_cases hi : call.push = i
  · have hown : own i [call] = [call] := by simp [own, hi]
    rw [hown]
    refine ⟨rfl, congrArg _ ?_⟩
    simp only [news]
    split_ifs
    · exact hown
    · rfl
  · have hown : own i [call] = [] := by simp [own, hi]
    have hlow := hcall hi
    have hnothing : own i [] = [] := rfl
    simp only [hown, highest, news, if_neg hlow, hnothing, List.append_nil, and_self]

/-- If the highest fraction is always that of a push's own calls, no other call is ahead of them. -/
lemma not_ahead (h : ∀ l r, calls = l ++ r → highest f l = highest f (own i l)) (l : List SinkCall)
    (call : SinkCall) (r : List SinkCall) (hcalls : calls = l ++ call :: r) (hi : call.push ≠ i) :
    ¬highest f (own i l) < call.fraction := by
  intro hlt
  have hbefore := h l _ hcalls
  have hafter := h (l ++ [call]) r (by simp [hcalls])
  have hown : own i [call] = [] := by simp [own, hi]
  rw [own_append, hown, List.append_nil, highest_append, hbefore] at hafter
  simp only [highest, if_pos hlt] at hafter
  rw [← hafter] at hlt
  exact Nat.lt_irrefl _ hlt

/-- If no other call is ahead, the calls come to the same as those of the push alone. -/
lemma comesToOwn (h : ∀ l call r, calls = l ++ call :: r → call.push ≠ i →
    ¬highest f (own i l) < call.fraction) (l r : List SinkCall) (hcalls : calls = l ++ r) :
    ComesToOwn f i l := by
  induction l using List.reverseRecOn generalizing r with
  | nil => exact ⟨rfl, rfl⟩
  | append_singleton l call ih =>
    rw [List.append_assoc] at hcalls
    exact comesToOwn_concat (ih _ hcalls) (h l call r hcalls)

end SinkCall

/-! ### A flight -/

namespace Crowd

open SinkCall

variable {c : Crowd} {o : Occurrence} {os during : List Occurrence} {i : Nat} {p : Push}
  {f : Binary64}

/-- The call to a sink that an occurrence is; a push has a sink once it has asked for its commit. -/
def called (c : Crowd) : Occurrence → Option SinkCall
  | .to i (.sent bytes total) =>
    if (c.push? i).any fun p => p.payload?.isSome then
      some ⟨i, Coordinator.fraction bytes total⟩
    else none
  | _ => none

/-- The calls to sinks among things that happen one after the other. -/
def calls (c : Crowd) : List Occurrence → List SinkCall
  | [] => []
  | o :: os => (c.called o).toList ++ (c.step o).calls os

lemma calls_append (c : Crowd) (os os' : List Occurrence) :
    c.calls (os ++ os') = c.calls os ++ (c.run os).calls os' := by
  induction os generalizing c with
  | nil => rfl
  | cons o os ih =>
    rw [List.cons_append, calls, calls, ih, List.append_assoc]
    rfl

/-- The first calls are those among the first things that happen. -/
lemma exists_take_of_calls {l r : List SinkCall} (h : c.calls os = l ++ r) :
    ∃ n, c.calls (os.take n) = l := by
  induction os generalizing c l with
  | nil =>
    obtain ⟨rfl, -⟩ := List.append_eq_nil_iff.1 h.symm
    exact ⟨0, rfl⟩
  | cons o os ih =>
    rcases l with _ | ⟨call, l⟩
    · exact ⟨0, rfl⟩
    · rw [calls] at h
      cases ho : c.called o with
      | none =>
        rw [ho] at h
        obtain ⟨n, hn⟩ := ih (c := c.step o) h
        exact ⟨n + 1, by rw [List.take_succ_cons, calls, ho, hn]; rfl⟩
      | some call' =>
        rw [ho] at h
        obtain ⟨rfl, hrest⟩ := List.cons.inj h
        obtain ⟨n, hn⟩ := ih (c := c.step o) hrest
        exact ⟨n + 1, by rw [List.take_succ_cons, calls, ho, hn]; rfl⟩

/-- What becomes of the coordinator and of the reports of a push by some calls. -/
def Notes (c : Crowd) (f : Binary64) (calls : List SinkCall) (c' : Crowd) : Prop :=
  c'.coordinator = .inFlight (highest f calls) ∧
    ∀ i p, c.push? i = some p → ∃ p', c'.push? i = some p' ∧
      p'.reports = p.reports ++ (own i (news f calls)).map SinkCall.fraction

lemma notes_nil (hf : c.coordinator = .inFlight f) : c.Notes f [] c :=
  ⟨hf, fun i p hp => ⟨p, hp, by simp [news, own]⟩⟩

/-- Something happens to one push, and its calls are noted. -/
lemma notes_to (hp : c.push? i = some p) {h : Happening} {calls : List SinkCall}
    (hcalls : ∀ call ∈ calls, call.push = i)
    (hshown : (p.step c.coordinator h).1 = .inFlight (highest f calls))
    (hreports : (p.step c.coordinator h).2.reports =
      p.reports ++ (news f calls).map SinkCall.fraction) :
    c.Notes f calls (c.step (.to i h)) := by
  have hnews : ∀ call ∈ news f calls, call.push = i := fun call hcall =>
    hcalls call (mem_of_mem_news hcall)
  refine ⟨by rw [step_to hp, hshown], fun j q hq => ?_⟩
  rw [push?_to hp]
  by_cases hj : j = i
  · subst hj
    obtain rfl : p = q := Option.some.inj (hp.symm.trans hq)
    have hall : own j (news f calls) = news f calls :=
      List.filter_eq_self.2 fun call hcall => decide_eq_true (hnews call hcall)
    exact ⟨_, if_pos rfl, by rw [hall, hreports]⟩
  · have hnone : own j (news f calls) = [] := by
      refine List.filter_eq_nil_iff.2 fun call hcall hsame => hj ?_
      rw [← hnews call hcall, of_decide_eq_true hsame]
    exact ⟨q, by rw [if_neg hj, hq], by rw [hnone]; simp⟩

/-- A call is noted, if the push has a sink. -/
lemma notes_sent (hf : c.coordinator = .inFlight f) (hp : c.push? i = some p) (bytes total : Nat) :
    c.Notes f (c.called (.to i (.sent bytes total))).toList
      (c.step (.to i (.sent bytes total))) := by
  by_cases hpay : p.payload?.isSome = true
  · have hstep := Push.step_sent hpay f bytes total
    rw [← hf] at hstep
    simp only [called, hp, Option.any_some, hpay, if_true, Option.toList_some]
    refine notes_to hp (by simp) ?_ ?_
    · rw [hstep]
      simp only [highest]
      split_ifs
      · rfl
      · exact hf
    · rw [hstep]
      simp only [news]
      split_ifs
      · simp [Push.reports, Push.events]
      · simp
  · have hstep : p.step c.coordinator (.sent bytes total) = (c.coordinator, p) := by
      simp only [Push.step, if_neg hpay]
    simp only [called, hp, Option.any_some, if_neg hpay, Option.toList_none]
    exact notes_to hp (by simp) (by rw [hstep]; exact hf) (by rw [hstep]; simp [news])

/-- What is not a call changes nothing, as long as a push is running. -/
lemma notes_other (hf : c.coordinator = .inFlight f) (hp : c.push? i = some p) {h : Happening}
    (hh : ∀ bytes total, h ≠ .sent bytes total)
    (hflight : (c.step (.to i h)).coordinator.isInFlight = true) :
    c.Notes f [] (c.step (.to i h)) := by
  have m := Push.move_step c.coordinator p h
  have hreports := m.reports_eq_or.resolve_right fun ⟨_, bytes, total, heq⟩ => hh bytes total heq
  rw [step_to hp] at hflight
  rw [hf] at m hflight
  refine notes_to hp (by simp) ?_ ?_
  · rw [hf]
    exact m.coordinator_eq hh hflight
  · rw [hreports]
    simp [news]

/-- A call is noted by the coordinator, and nothing else changes what is shown and reported while a
push is running. -/
lemma notes_step (hf : c.coordinator = .inFlight f)
    (hflight : (c.step o).coordinator.isInFlight = true) :
    c.Notes f (c.called o).toList (c.step o) := by
  rcases o with a | ⟨i, h⟩
  · refine ⟨hf, fun i p hp => ⟨p, ?_, by simp [called, news, own]⟩⟩
    have hi : i ≠ c.next := by
      rintro rfl
      simp [push?, next] at hp
    rw [push?_start, if_neg hi, hp]
  · cases hp : c.push? i with
    | none =>
      have hcalled : c.called (.to i h) = none := by
        cases h with
        | sent bytes total => simp [called, hp]
        | _ => rfl
      rw [step_to_none hp, hcalled]
      exact notes_nil hf
    | some p =>
      cases h with
      | sent bytes total => exact notes_sent hf hp bytes total
      | _ => exact notes_other hf hp (by simp) hflight

/-- While a push is running, the coordinator shows the highest fraction of all calls, and every push
reports those of its own that are higher than all calls before them. -/
theorem notes_run (hf : c.coordinator = .inFlight f)
    (hflight : ∀ n, (c.run (os.take n)).coordinator.isInFlight = true) :
    c.Notes f (c.calls os) (c.run os) := by
  induction os generalizing c f with
  | nil => exact ⟨hf, fun i p hp => ⟨p, hp, by simp [calls, news, own]⟩⟩
  | cons o os ih =>
    obtain ⟨hshown, hreports⟩ := notes_step hf (hflight 1)
    obtain ⟨hshown', hreports'⟩ := ih hshown fun n => hflight (n + 1)
    rw [calls]
    refine ⟨by rw [highest_append]; exact hshown', fun i p hp => ?_⟩
    obtain ⟨p', hp', hfirst⟩ := hreports i p hp
    obtain ⟨p'', hp'', hrest⟩ := hreports' i p' hp'
    refine ⟨p'', hp'', ?_⟩
    rw [hrest, hfirst, news_append, own_append, List.map_append, List.append_assoc]

/-! ### The flight of one push -/

/-- A push that has not asked for its commit reports nothing. -/
lemma reports_eq_nil (os : List Occurrence) (i : Nat) (p : Push)
    (hp : (empty.run os).push? i = some p) (hpay : p.payload? = none) : p.reports = [] := by
  induction os using List.reverseRecOn generalizing i p with
  | nil => exact nomatch hp
  | append_singleton os o ih =>
    rw [run_concat] at hp
    rcases step_cases (empty.run os) o with ⟨_, _, -, -, hstep⟩ | ⟨a, -, -, hpush⟩ |
      ⟨k, h, q, c', q', -, hq, hmove, -, hpush⟩
    · exact ih i p (hstep ▸ hp) hpay
    · rw [hpush] at hp
      split_ifs at hp
      · rw [← Option.some.inj hp, Push.reports_start]
      · exact ih i p hp hpay
    · rw [hpush] at hp
      split_ifs at hp
      · obtain rfl := Option.some.inj hp
        have hqpay : q.payload? = none := by
          rw [Push.payload?, List.findSome?_eq_none_iff] at hpay ⊢
          exact fun d hd => hpay d (hmove.history_prefix.subset hd)
        have hsame := hmove.reports_eq_or.resolve_right fun hcall => by simp [hqpay] at hcall
        rw [hsame, ih k q hq hqpay]
      · exact ih i p hp hpay

/-- What is shown, and what a push reports. -/
def Shows (c : Crowd) (i : Nat) (shown : Binary64) (reports : List Binary64) : Prop :=
  c.coordinator = .inFlight shown ∧ ∃ p, c.push? i = some p ∧ p.reports = reports

/-- The crowd in which a push has just taken the slot, if that is free. -/
def taken (os : List Occurrence) (i : Nat) : Crowd := (empty.run os).step (.to i .told)

/-- A push takes the slot, and it is held all the while during what happens then. -/
structure Flight (os : List Occurrence) (i : Nat) (during : List Occurrence) : Prop where
  idle : (empty.run os).coordinator = .idle
  inFlight : ∀ n, ((taken os i).run (during.take n)).coordinator.isInFlight = true

lemma Flight.begins (h : Flight os i during) : (taken os i).Shows i .zero [] := by
  have hflight := h.inFlight 0
  rw [List.take_zero] at hflight
  change (taken os i).coordinator.isInFlight = true at hflight
  rw [taken] at hflight ⊢
  cases hp : (empty.run os).push? i with
  | none =>
    rw [step_to_none hp, h.idle] at hflight
    exact nomatch hflight
  | some p =>
    have m := Push.move_step (empty.run os).coordinator p .told
    have hreports := m.reports_eq_or.resolve_right fun hcall => by simp at hcall
    rw [step_to hp] at hflight
    rw [h.idle] at m hflight
    obtain ⟨hzero, hstarting⟩ := m.begins hflight
    -- a push that is starting has asked for nothing but its first announcement
    have hpay : p.payload? = none := by
      obtain ⟨a, -, hcourse⟩ := course_run os i p hp
      obtain ⟨area, stage, queue, history⟩ := p
      change stage = _ at hstarting
      subst hstarting
      change Push.Course _ _ _ a .starting area history at hcourse
      cases hcourse with
      | starting => rfl
    refine ⟨?_, _, by rw [push?_to hp, if_pos rfl], ?_⟩
    · rw [step_to hp, h.idle]
      exact hzero
    · rw [hreports, reports_eq_nil os i p hp hpay]

/-- The law of all sinks. -/
lemma Flight.shows (h : Flight os i during) (n : Nat) :
    ((taken os i).run (during.take n)).Shows i (highest .zero ((taken os i).calls (during.take n)))
      ((own i (news .zero ((taken os i).calls (during.take n)))).map SinkCall.fraction) := by
  obtain ⟨hzero, p, hp, hnothing⟩ := h.begins
  have hflight : ∀ m,
      ((taken os i).run ((during.take n).take m)).coordinator.isInFlight = true := by
    intro m
    rw [List.take_take]
    exact h.inFlight _
  obtain ⟨hshown, hreports⟩ := notes_run hzero hflight
  obtain ⟨p', hp', hall⟩ := hreports i p hp
  exact ⟨hshown, p', hp', by rw [hall, hnothing, List.nil_append]⟩

/-- While a push is running, what is shown is the highest fraction of all calls to sinks, and the
push reports those of its own calls that are higher than all calls before them.  This is always what
its own calls come to exactly if no call to another sink is ahead of them. -/
theorem progress_of_sinks (h : Flight os i during) :
    (∀ n, ((taken os i).run (during.take n)).Shows i
      (highest .zero ((taken os i).calls (during.take n)))
      ((own i (news .zero ((taken os i).calls (during.take n)))).map SinkCall.fraction)) ∧
    ((∀ n, ((taken os i).run (during.take n)).Shows i
        (highest .zero (own i ((taken os i).calls (during.take n))))
        ((news .zero (own i ((taken os i).calls (during.take n)))).map SinkCall.fraction)) ↔
      ∀ l call r, (taken os i).calls during = l ++ call :: r → call.push ≠ i →
        ¬highest .zero (own i l) < call.fraction) := by
  refine ⟨h.shows, fun hown => not_ahead fun l r hcalls => ?_, fun hlow n => ?_⟩
  · obtain ⟨n, rfl⟩ := exists_take_of_calls hcalls
    exact Coordinator.inFlight.inj ((h.shows n).1.symm.trans (hown n).1)
  · have hsplit : (taken os i).calls during = (taken os i).calls (during.take n) ++
        ((taken os i).run (during.take n)).calls (during.drop n) := by
      rw [← calls_append, List.take_append_drop]
    obtain ⟨hhighest, hnews⟩ := comesToOwn hlow _ _ hsplit
    rw [← hhighest, ← hnews]
    exact h.shows n

/-! ### A sink that outlives its push -/

/-- A deletion. -/
def oneDeletion : StagingArea := ⟨[⟨⟨"b/r/x"⟩, .ofPatch (.delete ["p"])⟩]⟩

/-- The commit of a first push fails, and a second push is started. -/
def retried : List Occurrence :=
  .start oneDeletion :: Occurrence.opening 0 (.ok ()) ++
    Occurrence.closing 0 (.error .unauthorized) 0 ++ [.start oneDeletion]

/-- The second push has asked for its commit when the sink of the first one is called, and after
that its own. -/
def lateCall : List Occurrence :=
  (Occurrence.opening 1 (.ok ())).tail ++ [.to 0 (.sent 1 2), .to 1 (.sent 1 4)]

lemma flight_lateCall : Flight retried 1 lateCall where
  idle := rfl
  inFlight n := by
    have hall : ∀ m ≤ 6,
        ((taken retried 1).run (lateCall.take m)).coordinator.isInFlight = true := by
      decide +kernel
    by_cases hn : n ≤ 6
    · exact hall n hn
    · rw [List.take_of_length_le (by show 6 ≤ n; omega)]
      exact hall 6 (Nat.le_refl _)

/-- Half is shown, and nothing is reported, though a quarter is all that the push's own sink was
told. -/
theorem progress_of_lateCall :
    Flight retried 1 lateCall ∧
    ((taken retried 1).run lateCall).Shows 1 (Coordinator.fraction 1 2) [] ∧
    ¬∀ n, ((taken retried 1).run (lateCall.take n)).Shows 1
      (highest .zero (own 1 ((taken retried 1).calls (lateCall.take n))))
      ((news .zero (own 1 ((taken retried 1).calls (lateCall.take n)))).map SinkCall.fraction) := by
  have hcalls : (taken retried 1).calls lateCall =
      [⟨0, Coordinator.fraction 1 2⟩, ⟨1, Coordinator.fraction 1 4⟩] := by rfl
  obtain ⟨hshows, hiff⟩ := progress_of_sinks flight_lateCall
  refine ⟨flight_lateCall, ?_, fun hown => ?_⟩
  · have hlast := hshows 6
    rw [List.take_of_length_le (by decide), hcalls] at hlast
    have hhighest : highest .zero [⟨0, Coordinator.fraction 1 2⟩, ⟨1, Coordinator.fraction 1 4⟩] =
        Coordinator.fraction 1 2 := by
      decide +kernel
    have hnews : (own 1 (news .zero [⟨0, Coordinator.fraction 1 2⟩,
        ⟨1, Coordinator.fraction 1 4⟩])).map SinkCall.fraction = [] := by
      decide +kernel
    rwa [hhighest, hnews] at hlast
  · exact hiff.1 hown [] ⟨0, Coordinator.fraction 1 2⟩ _ hcalls (by decide) (by decide +kernel)

/-- A call to the sink of a push that is over need not leave the coordinator as it is. -/
theorem ended_sink_is_heard :
    ¬∀ os i p r bytes total, (empty.run os).push? i = some p → p.stage = .ended r →
      ((empty.run os).step (.to i (.sent bytes total))).coordinator =
        (empty.run os).coordinator := by
  intro hclaim
  have hsame := hclaim (retried ++ Occurrence.opening 1 (.ok ())) 0 _ _ 1 2 rfl rfl
  exact absurd hsame (by decide +kernel)

end Crowd

end PackageStaging
