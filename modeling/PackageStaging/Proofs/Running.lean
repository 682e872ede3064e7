/-
# Attempts that are run

`Attempt.exec` is the result of an attempt in a world, and the world that it leaves behind.  There
is one lemma for each way in which attempts are put together.  `Attempt.Leaves P` says that an
attempt leaves `P` true of the world, whatever it results in; what is true of the files and the
working directory alone is left true by everything that changes no file (`Attempt.leaves_ask`).
`Attempt.Agrees R` says that the attempt has the same result in two worlds and leaves them related;
it is enough that each call does so (`Program.Asks.agrees`).
-/
import Mathlib.Tactic.Lemma
import PackageStaging.Proofs.Outcome
import PackageStaging.World

namespace PackageStaging

namespace Attempt

variable {α β : Type} {t : Attempt α} {f : α → Attempt β} {w w' : World} {e : Error}

/-- The result of an attempt, and the world after it. -/
def exec (t : Attempt α) (w : World) : Except Error α × World := Program.run t.run w

@[simp] lemma exec_pure (a : α) (w : World) : exec (pure a) w = (.ok a, w) := rfl

lemma exec_pure_inj {a b : α} (h : (pure a : Attempt α).exec w = (.ok b, w')) : a = b ∧ w = w' :=
  ⟨Except.ok.inj (Prod.mk.inj h).1, (Prod.mk.inj h).2⟩

@[simp] lemma exec_ofExcept (r : Except Error α) (w : World) : exec (ofExcept r) w = (r, w) := rfl

@[simp] lemma exec_ask (c : Call) (w : World) :
    exec (ask c) w = (.ok (w.answer c).1, (w.answer c).2) := rfl

lemma exec_lift (p : Program α) (w : World) :
    exec (ExceptT.lift p) w = (.ok (p.run w).1, (p.run w).2) := by
  show Program.run (p.bind fun a => Program.done (Except.ok a : Except Error α)) w = _
  rw [Program.run_bind]
  rfl

lemma exec_outcome (t : Attempt α) (w : World) :
    t.outcome.exec w = (.ok (t.exec w).1, (t.exec w).2) := exec_lift t.run w

lemma exec_bind_ok {a : α} (h : t.exec w = (.ok a, w')) : (t >>= f).exec w = (f a).exec w' := by
  show Program.run (Program.bind t.run (ExceptT.bindCont f)) w = _
  have hrun : Program.run t.run w = (.ok a, w') := h
  rw [Program.run_bind, hrun]
  rfl

lemma exec_bind_error (h : t.exec w = (.error e, w')) : (t >>= f).exec w = (.error e, w') := by
  show Program.run (Program.bind t.run (ExceptT.bindCont f)) w = _
  have hrun : Program.run t.run w = (.error e, w') := h
  rw [Program.run_bind, hrun]
  rfl

lemma exec_ask_bind (c : Call) (g : c.Answer → Attempt β) (w : World) :
    (ask c >>= g).exec w = (g (w.answer c).1).exec (w.answer c).2 :=
  exec_bind_ok (exec_ask c w)

/-- What is true of an attempt and a later one, in case the first one succeeds or fails. -/
lemma exec_bind_cases {P : Except Error β × World → Prop}
    (herror : ∀ e w', t.exec w = (.error e, w') → P (.error e, w'))
    (hok : ∀ a w', t.exec w = (.ok a, w') → P ((f a).exec w')) : P ((t >>= f).exec w) := by
  rcases h : t.exec w with ⟨e | a, w'⟩
  · rw [exec_bind_error h]
    exact herror e w' h
  · rw [exec_bind_ok h]
    exact hok a w' h

/-! ### What is left true -/

/-- The attempt leaves it true of the world. -/
def Leaves (P : World → Prop) (t : Attempt α) : Prop := ∀ w, P w → P (t.exec w).2

variable {P : World → Prop}

lemma leaves_ofExcept (r : Except Error α) : Leaves P (ofExcept r) := fun _ h => h

lemma leaves_pure (a : α) : Leaves P (pure a) := fun _ h => h

lemma leaves_fail (e : Error) : Leaves P (fail e : Attempt α) := fun _ h => h

lemma Leaves.bind (ht : Leaves P t) (hf : ∀ a, Leaves P (f a)) : Leaves P (t >>= f) := by
  intro w hw
  refine exec_bind_cases (P := fun r => P r.2) ?_ ?_
  · intro e w' h
    have hafter := ht w hw
    rwa [h] at hafter
  · intro a w' h
    have hafter := ht w hw
    rw [h] at hafter
    exact hf a w' hafter

lemma Leaves.outcome (ht : Leaves P t) : Leaves P t.outcome := by
  intro w hw
  rw [exec_outcome]
  exact ht w hw

lemma Leaves.and {Q : World → Prop} (hP : Leaves P t) (hQ : Leaves Q t) :
    Leaves (fun w => P w ∧ Q w) t := fun w hw => ⟨hP w hw.1, hQ w hw.2⟩

lemma leaves_exists {ι : Type} {P : ι → World → Prop} (ht : ∀ i, Leaves (P i) t) :
    Leaves (fun w => ∃ i, P i w) t := fun w hw => hw.imp fun i hi => ht i w hi

lemma leaves_forM {γ : Type} {l : List γ} {g : γ → Attempt Unit} (hg : ∀ x ∈ l, Leaves P (g x)) :
    Leaves P (l.forM g) := by
  induction l with
  | nil => exact leaves_pure ()
  | cons x l ih =>
    show Leaves P (g x >>= fun _ => l.forM g)
    exact (hg x (.head _)).bind fun _ => ih fun y hy => hg y (.tail _ hy)

/-! ### What succeeds -/

/-- The attempt never fails. -/
def Succeeds (t : Attempt α) : Prop := ∀ w, ∃ a w', t.exec w = (.ok a, w')

lemma succeeds_pure (a : α) : Succeeds (pure a) := fun w => ⟨a, w, rfl⟩

lemma succeeds_ask (c : Call) : Succeeds (ask c) := fun w => ⟨_, _, exec_ask c w⟩

lemma succeeds_outcome (t : Attempt α) : Succeeds t.outcome := fun w => ⟨_, _, exec_outcome t w⟩

lemma Succeeds.bind (ht : Succeeds t) (hf : ∀ a, Succeeds (f a)) : Succeeds (t >>= f) := by
  intro w
  obtain ⟨a, w', h⟩ := ht w
  rw [exec_bind_ok h]
  exact hf a w'

lemma succeeds_forM {γ : Type} {l : List γ} {g : γ → Attempt Unit}
    (hg : ∀ x ∈ l, Succeeds (g x)) : Succeeds (l.forM g) := by
  induction l with
  | nil => exact succeeds_pure ()
  | cons x l ih =>
    show Succeeds (g x >>= fun _ => l.forM g)
    exact (hg x (.head _)).bind fun _ => ih fun y hy => hg y (.tail _ hy)

/-! ### What fails -/

/-- If the attempt fails, it is with such an error. -/
def Fails (E : Error → Prop) (t : Attempt α) : Prop := ∀ w e w', t.exec w = (.error e, w') → E e

variable {E : Error → Prop}

lemma Succeeds.fails (ht : Succeeds t) : Fails E t := by
  intro w e w' hrun
  obtain ⟨a, w₁, hok⟩ := ht w
  rw [hok] at hrun
  exact nomatch (Prod.mk.inj hrun).1

lemma Fails.imp {E' : Error → Prop} (ht : Fails E t) (hE : ∀ e, E e → E' e) : Fails E' t :=
  fun w e w' hrun => hE e (ht w e w' hrun)

/-! ### What is given -/

/-- Every result of the attempt is one of these. -/
def Gives (Q : α → Prop) (t : Attempt α) : Prop := ∀ w a w', t.exec w = (.ok a, w') → Q a

lemma gives_pure {Q : α → Prop} {a : α} (h : Q a) : Gives Q (pure a) := by
  intro w b w' hrun
  obtain ⟨rfl, -⟩ := exec_pure_inj hrun
  exact h

lemma gives_ofExcept (r : Except Error α) : Gives (fun a => r = .ok a) (ofExcept r) :=
  fun _ _ _ hrun => (Prod.mk.inj hrun).1

lemma Gives.bind {Q : α → Prop} {Q' : β → Prop} (ht : Gives Q t) (hf : ∀ a, Q a → Gives Q' (f a)) :
    Gives Q' (t >>= f) := by
  intro w b w' hrun
  rcases h : t.exec w with ⟨e | a, w1⟩
  · rw [exec_bind_error h] at hrun
    cases hrun
  · rw [exec_bind_ok h] at hrun
    exact hf a (ht w a w1 h) w1 b w' hrun

/-- Every attempt gives something. -/
lemma gives_any (t : Attempt α) : Gives (fun _ => True) t := fun _ _ _ _ => trivial

/-- This is true of every result of the attempt and the world after it. -/
def Ends (Q : α → World → Prop) (t : Attempt α) : Prop :=
  ∀ w a w', t.exec w = (.ok a, w') → Q a w'

lemma ends_pure {Q : α → World → Prop} {a : α} (h : ∀ w, Q a w) : Ends Q (pure a) := by
  intro w b w' hrun
  obtain ⟨rfl, rfl⟩ := exec_pure_inj hrun
  exact h w

lemma ends_ask (c : Call) : Ends (fun x w' => ∃ w : World, w.answer c = (x, w')) (ask c) := by
  intro w x w' hrun
  obtain ⟨hx, hw⟩ := Prod.mk.inj hrun
  exact ⟨w, Prod.ext (Except.ok.inj hx) hw⟩

lemma Gives.ends {Q : α → Prop} (h : Gives Q t) : Ends (fun a _ => Q a) t := h

lemma Ends.bind {Q : α → World → Prop} {Q' : β → World → Prop} (ht : Ends Q t)
    (hf : ∀ a w, Q a w → ∀ b w', (f a).exec w = (.ok b, w') → Q' b w') : Ends Q' (t >>= f) := by
  intro w b w' hrun
  rcases h : t.exec w with ⟨e | a, w1⟩
  · rw [exec_bind_error h] at hrun
    cases hrun
  · rw [exec_bind_ok h] at hrun
    exact hf a w1 (ht w a w1 h) b w' hrun

/-- An attempt whose first part ends so that the rest fails with such errors only. -/
lemma Fails.bind_ends {E : Error → Prop} {Q : α → World → Prop} (ht : Fails E t) (hends : Ends Q t)
    (hf : ∀ a w, Q a w → ∀ e w', (f a).exec w = (.error e, w') → E e) : Fails E (t >>= f) := by
  intro w e w' hrun
  rcases h : t.exec w with ⟨e₁ | a, w₁⟩
  · rw [exec_bind_error h] at hrun
    obtain ⟨he, -⟩ := Prod.mk.inj hrun
    exact Except.error.inj he ▸ ht w e₁ w₁ h
  · rw [exec_bind_ok h] at hrun
    exact hf a w₁ (hends w a w₁ h) e w' hrun

lemma Fails.bind_gives {E : Error → Prop} {Q : α → Prop} (ht : Fails E t) (hgives : Gives Q t)
    (hf : ∀ a, Q a → Fails E (f a)) : Fails E (t >>= f) :=
  ht.bind_ends hgives.ends fun a w ha => hf a ha w

lemma Fails.bind {E : Error → Prop} (ht : Fails E t) (hf : ∀ a, Fails E (f a)) :
    Fails E (t >>= f) := ht.bind_gives (gives_any t) fun a _ => hf a

lemma Gives.bind_ends {Q : α → Prop} {Q' : β → World → Prop} (ht : Gives Q t)
    (hf : ∀ a, Q a → Ends Q' (f a)) : Ends Q' (t >>= f) :=
  ht.ends.bind fun a w ha => hf a ha w

/-- From any of these worlds the attempt comes to a result and a world of which this is true, or
fails and leaves that true. -/
def Leads (P : World → Prop) (t : Attempt α) (Q : α → World → Prop) (E : World → Prop) : Prop :=
  ∀ w, P w → (∀ a w', t.exec w = (.ok a, w') → Q a w') ∧ ∀ e w', t.exec w = (.error e, w') → E w'

variable {Q : α → World → Prop} {E : World → Prop}

/-- An attempt that succeeds in a world leads from there to what is true of its result. -/
lemma leads_of_ok {a : α} (h : t.exec w = (.ok a, w')) (hQ : Q a w') :
    (∀ a w', t.exec w = (.ok a, w') → Q a w') ∧ ∀ e w', t.exec w = (.error e, w') → E w' := by
  rw [h]
  refine ⟨fun b w₁ hrun => ?_, fun e w₁ hrun => ?_⟩
  · cases hrun
    exact hQ
  · cases hrun

/-- An attempt that fails in a world leads from there to what is true of the world it leaves. -/
lemma leads_of_error (h : t.exec w = (.error e, w')) (hE : E w') :
    (∀ a w', t.exec w = (.ok a, w') → Q a w') ∧ ∀ e w', t.exec w = (.error e, w') → E w' := by
  rw [h]
  refine ⟨fun a w₁ hrun => ?_, fun e' w₁ hrun => ?_⟩
  · cases hrun
  · cases hrun
    exact hE

lemma leads_pure {a : α} (h : ∀ w, P w → Q a w) : Leads P (pure a) Q E :=
  fun w hw => leads_of_ok (exec_pure a w) (h w hw)

lemma Leads.bind {Q' : β → World → Prop} (ht : Leads P t Q E)
    (hf : ∀ a, Leads (Q a) (f a) Q' E) : Leads P (t >>= f) Q' E := by
  intro w hw
  rcases h : t.exec w with ⟨e | a, w₁⟩
  · exact leads_of_error (exec_bind_error h) ((ht w hw).2 e w₁ h)
  · rw [exec_bind_ok h]
    exact hf a w₁ ((ht w hw).1 a w₁ h)

lemma Leads.outcome (ht : Leads P t Q E) :
    Leads P t.outcome (fun r w => (∃ a, r = .ok a ∧ Q a w) ∨ (∃ e, r = .error e) ∧ E w) E := by
  refine fun w hw => ⟨fun r w' hrun => ?_, fun e w' hrun => ?_⟩
  · rw [exec_outcome] at hrun
    obtain ⟨hr, rfl⟩ := Prod.mk.inj hrun
    rw [← Except.ok.inj hr]
    cases h : (t.exec w).1 with
    | ok a => exact .inl ⟨a, rfl, (ht w hw).1 a _ (Prod.ext h rfl)⟩
    | error e => exact .inr ⟨⟨e, rfl⟩, (ht w hw).2 e _ (Prod.ext h rfl)⟩
  · rw [exec_outcome] at hrun
    exact nomatch (Prod.mk.inj hrun).1

lemma Leads.imp {P' E' : World → Prop} {Q' : α → World → Prop} (ht : Leads P t Q E)
    (hP : ∀ w, P' w → P w) (hQ : ∀ a w, Q a w → Q' a w) (hE : ∀ w, E w → E' w) :
    Leads P' t Q' E' := fun w hw =>
  ⟨fun a w' hrun => hQ a w' ((ht w (hP w hw)).1 a w' hrun),
    fun e w' hrun => hE w' ((ht w (hP w hw)).2 e w' hrun)⟩

/-- What never fails leaves anything true when it fails. -/
lemma Leads.of_succeeds {E' : World → Prop} (ht : Leads P t Q E) (hs : Succeeds t) :
    Leads P t Q E' := by
  refine fun w hw => ⟨(ht w hw).1, fun e w' hrun => ?_⟩
  obtain ⟨a, w₁, hok⟩ := hs w
  rw [hok] at hrun
  exact nomatch (Prod.mk.inj hrun).1

lemma Leaves.leads (ht : Leaves P t) : Leads P t (fun _ => P) P := by
  refine fun w hw => ⟨fun a w' hrun => ?_, fun e w' hrun => ?_⟩
  · have hafter := ht w hw
    rwa [hrun] at hafter
  · have hafter := ht w hw
    rwa [hrun] at hafter

end Attempt

/-! ### What is asked -/

/-- The program makes no calls but these. -/
def Program.Asks {α : Type} (C : Call → Prop) : Program α → Prop
  | .done _ => True
  | .call c next => C c ∧ ∀ a, (next a).Asks C

lemma Program.Asks.bind {α β : Type} {C : Call → Prop} {p : Program α} {f : α → Program β}
    (hp : p.Asks C) (hf : ∀ a, (f a).Asks C) : (p.bind f).Asks C := by
  induction p with
  | done a => exact hf a
  | call c next ih => exact ⟨hp.1, fun a => ih a (hp.2 a)⟩

lemma Program.Asks.imp {α : Type} {C C' : Call → Prop} {p : Program α} (hp : p.Asks C)
    (hC : ∀ c, C c → C' c) : p.Asks C' := by
  induction p with
  | done a => trivial
  | call c next ih => exact ⟨hC c hp.1, fun a => ih a (hp.2 a)⟩

namespace Attempt

variable {α β : Type} {t : Attempt α} {f : α → Attempt β} {P : World → Prop} {C : Call → Prop}

/-- The attempt makes no calls but these. -/
def Asks (C : Call → Prop) (t : Attempt α) : Prop := Program.Asks C t.run

lemma asks_ofExcept (r : Except Error α) : Asks C (ofExcept r) := trivial

lemma asks_pure (a : α) : Asks C (pure a) := trivial

lemma asks_fail (e : Error) : Asks C (fail e : Attempt α) := trivial

lemma asks_ask {c : Call} (hc : C c) : Asks C (ask c) := ⟨hc, fun _ => trivial⟩

lemma Asks.bind (ht : Asks C t) (hf : ∀ a, Asks C (f a)) : Asks C (t >>= f) := by
  refine Program.Asks.bind (p := t.run) ht fun x => ?_
  cases x with
  | error e => trivial
  | ok a => exact hf a

lemma Asks.outcome (ht : Asks C t) : Asks C t.outcome :=
  Program.Asks.bind (p := t.run) ht fun _ => trivial

lemma asks_forM {γ : Type} {l : List γ} {g : γ → Attempt Unit} (hg : ∀ x ∈ l, Asks C (g x)) :
    Asks C (l.forM g) := by
  induction l with
  | nil => exact asks_pure ()
  | cons x l ih =>
    show Asks C (g x >>= fun _ => l.forM g)
    exact (hg x (.head _)).bind fun _ => ih fun y hy => hg y (.tail _ hy)

lemma Asks.imp {C' : Call → Prop} (ht : Asks C t) (hC : ∀ c, C c → C' c) : Asks C' t :=
  Program.Asks.imp ht hC

/-- What every call leaves true, the attempt leaves true. -/
lemma Asks.leaves (ht : Asks C t) (hC : ∀ c, C c → ∀ w, P w → P (w.answer c).2) : Leaves P t := by
  have hrun : ∀ (p : Program (Except Error α)), p.Asks C → ∀ w, P w → P (p.run w).2 := by
    intro p hp
    induction p with
    | done a => exact fun w hw => hw
    | call c next ih => exact fun w hw => ih _ (hp.2 _) _ (hC c hp.1 w hw)
  exact hrun t.run ht

/-! ### What is sent -/

/-- No call takes back a request. -/
lemma requests_answer (w : World) (c : Call) : w.requests <+: (w.answer c).2.requests := by
  have hchange : ∀ r, w.requests <+: (w.change r).2.requests := by
    intro r
    cases r with
    | ok files => exact List.prefix_refl _
    | error f => exact List.prefix_refl _
  cases c with
  | writeFile p content => exact hchange _
  | replaceFile source target => exact hchange _
  | removeFile p => exact hchange _
  | makeDirectory p => exact hchange _
  | send r => exact List.prefix_append _ _
  | print channel text =>
    cases channel with
    | standard => exact List.prefix_refl _
    | diagnostic => exact List.prefix_refl _
  | _ => exact List.prefix_refl _

lemma requests_run (p : Program α) (w : World) : w.requests <+: (p.run w).2.requests := by
  induction p generalizing w with
  | done a => exact List.prefix_refl _
  | call c next ih => exact (requests_answer w c).trans (ih _ _)

/-- An attempt only adds to the requests. -/
lemma requests_exec (t : Attempt α) (w : World) : w.requests <+: (t.exec w).2.requests :=
  requests_run t.run w

end Attempt

/-! ### Two runs side by side -/

namespace Program

variable {α β : Type} {R : World → World → Prop} {p : Program α} {f : α → Program β} {w w' : World}

/-- Both runs have the same result, and the worlds that they leave are related. -/
def Agrees (R : World → World → Prop) (p : Program α) (w w' : World) : Prop :=
  (p.run w').1 = (p.run w).1 ∧ R (p.run w).2 (p.run w').2

lemma agrees_done (a : α) (h : R w w') : (done a).Agrees R w w' := ⟨rfl, h⟩

lemma Agrees.bind (h : p.Agrees R w w')
    (hf : ∀ a u u', p.run w = (a, u) → R u u' → (f a).Agrees R u u') :
    (p.bind f).Agrees R w w' := by
  obtain ⟨hresult, hworlds⟩ := h
  rw [Agrees, run_bind, run_bind, hresult]
  exact hf _ _ _ rfl hworlds

/-- Runs agree if every call has the same answer in both and leaves the worlds related. -/
lemma Asks.agrees {C : Call → Prop} (hp : p.Asks C)
    (hC : ∀ c, C c → ∀ w w', R w w' →
      (w'.answer c).1 = (w.answer c).1 ∧ R (w.answer c).2 (w'.answer c).2)
    (h : R w w') : p.Agrees R w w' := by
  induction p generalizing w w' with
  | done a => exact ⟨rfl, h⟩
  | call c next ih =>
    obtain ⟨hanswer, hworlds⟩ := hC c hp.1 w w' h
    show ((next (w'.answer c).1).run (w'.answer c).2).1 =
        ((next (w.answer c).1).run (w.answer c).2).1 ∧
      R ((next (w.answer c).1).run (w.answer c).2).2 ((next (w'.answer c).1).run (w'.answer c).2).2
    rw [hanswer]
    exact ih _ (hp.2 _) hworlds

end Program

namespace Attempt

variable {α β : Type} {R : World → World → Prop} {t : Attempt α} {f : α → Attempt β}
  {w w' : World}

/-- Both runs have the same result, and the worlds that they leave are related. -/
def Agrees (R : World → World → Prop) (t : Attempt α) (w w' : World) : Prop :=
  Program.Agrees R t.run w w'

lemma agrees_ofExcept (r : Except Error α) (h : R w w') : (ofExcept r).Agrees R w w' := ⟨rfl, h⟩

lemma agrees_pure (a : α) (h : R w w') : (pure a : Attempt α).Agrees R w w' := ⟨rfl, h⟩

lemma Agrees.bind (h : t.Agrees R w w')
    (hf : ∀ a u u', t.exec w = (.ok a, u) → R u u' → (f a).Agrees R u u') :
    (t >>= f).Agrees R w w' := by
  refine Program.Agrees.bind (p := t.run) h fun r u u' hrun hworlds => ?_
  cases r with
  | error e => exact Program.agrees_done _ hworlds
  | ok a => exact hf a u u' hrun hworlds

lemma agrees_of_exec {r : Except Error α} {u u' : World} (h : t.exec w = (r, u))
    (h' : t.exec w' = (r, u')) (hR : R u u') : t.Agrees R w w' := by
  have hrun : (t.exec w').1 = (t.exec w).1 ∧ R (t.exec w).2 (t.exec w').2 := by
    rw [h, h']
    exact ⟨rfl, hR⟩
  exact hrun

/-- An attempt goes on alike after a part of it that is known to have the same result. -/
lemma agrees_bind_of_exec {a : α} {u u' : World} (h : t.exec w = (.ok a, u))
    (h' : t.exec w' = (.ok a, u')) (hf : (f a).Agrees R u u') : (t >>= f).Agrees R w w' := by
  have hrun : ((t >>= f).exec w').1 = ((t >>= f).exec w).1 ∧
      R ((t >>= f).exec w).2 ((t >>= f).exec w').2 := by
    rw [exec_bind_ok h, exec_bind_ok h']
    exact hf
  exact hrun

end Attempt

/-! ### Files -/

/-- The calls that may change a file. -/
def Call.changesFiles : Call → Bool
  | .writeFile _ _ | .replaceFile _ _ | .removeFile _ | .makeDirectory _ => true
  | _ => false

/-- It is true of worlds because of their files and their working directory. -/
def OfFiles (P : World → Prop) : Prop :=
  ∀ w w' : World, w'.files = w.files → w'.here = w.here → P w → P w'

lemma ofFiles_tree (Q : FileTree → Route → Prop) : OfFiles fun w => Q w.files w.here := by
  intro w w' hfiles hhere h
  show Q w'.files w'.here
  rwa [hfiles, hhere]

lemma World.answer_of_not_changesFiles {c : Call} (hc : c.changesFiles = false) (w : World) :
    (w.answer c).2.files = w.files ∧ (w.answer c).2.here = w.here := by
  cases c with
  | writeFile => exact nomatch hc
  | replaceFile => exact nomatch hc
  | removeFile => exact nomatch hc
  | makeDirectory => exact nomatch hc
  | print channel text =>
    cases channel with
    | standard => exact ⟨rfl, rfl⟩
    | diagnostic => exact ⟨rfl, rfl⟩
  | _ => exact ⟨rfl, rfl⟩

lemma Attempt.leaves_ask {P : World → Prop} (hP : OfFiles P) {c : Call}
    (hc : c.changesFiles = false) : Leaves P (ask c) := by
  intro w hw
  obtain ⟨hfiles, hhere⟩ := w.answer_of_not_changesFiles hc
  exact hP w (w.answer c).2 hfiles hhere hw

/-- What changes no file leaves what is true of the files. -/
lemma Attempt.Asks.leaves_files {α : Type} {t : Attempt α} {P : World → Prop}
    (ht : t.Asks fun c => c.changesFiles = false) (hP : OfFiles P) : Leaves P t :=
  ht.leaves fun _ hc => leaves_ask hP hc

/-! ### Programs that see files only -/

/-- Both worlds have the same files and the same working directory. -/
def World.SameFiles (w w' : World) : Prop := w'.files = w.files ∧ w'.here = w.here

/-- The calls whose answers depend on nothing but files. -/
def Call.IsOfDirectories : Call → Prop
  | .makeDirectory _ | .isDirectory _ => True
  | _ => False

/-- The program makes and looks up directories and does nothing else. -/
def Program.OfDirectories {α : Type} : Program α → Prop
  | .done _ => True
  | .call c next => c.IsOfDirectories ∧ ∀ a, (next a).OfDirectories

lemma Program.OfDirectories.bind {α β : Type} {p : Program α} {f : α → Program β}
    (hp : p.OfDirectories) (hf : ∀ a, (f a).OfDirectories) : (p.bind f).OfDirectories := by
  induction p with
  | done a => exact hf a
  | call c next ih => exact ⟨hp.1, fun a => ih a (hp.2 a)⟩

lemma Program.OfDirectories.asks {α : Type} {C : Call → Prop} {p : Program α}
    (hp : p.OfDirectories) (hC : ∀ c, c.IsOfDirectories → C c) : p.Asks C := by
  induction p with
  | done a => trivial
  | call c next ih => exact ⟨hC c hp.1, fun a => ih a (hp.2 a)⟩

lemma World.SameFiles.answer {w w' : World} (h : w.SameFiles w') {c : Call}
    (hc : c.IsOfDirectories) :
    (w'.answer c).1 = (w.answer c).1 ∧ (w.answer c).2.SameFiles (w'.answer c).2 := by
  obtain ⟨hfiles, hhere⟩ := h
  cases c with
  | makeDirectory p =>
    show (w'.change (w'.files.makeDirectory w'.here p)).1 =
        (w.change (w.files.makeDirectory w.here p)).1 ∧
      (w.change (w.files.makeDirectory w.here p)).2.SameFiles
        (w'.change (w'.files.makeDirectory w'.here p)).2
    rw [hfiles, hhere]
    cases w.files.makeDirectory w.here p with
    | error f => exact ⟨rfl, hfiles, hhere⟩
    | ok files => exact ⟨rfl, rfl, hhere⟩
  | isDirectory p =>
    show w'.files.isDirectory w'.here p = w.files.isDirectory w.here p ∧ w.SameFiles w'
    rw [hfiles, hhere]
    exact ⟨rfl, hfiles, hhere⟩
  | _ => exact hc.elim

/-- Such a program does the same in both worlds. -/
lemma Program.OfDirectories.run_eq {α : Type} {p : Program α} (hp : p.OfDirectories) {w w' : World}
    (h : w.SameFiles w') : (p.run w').1 = (p.run w).1 ∧ (p.run w).2.SameFiles (p.run w').2 :=
  (hp.asks fun _ hc => hc).agrees (fun _ hc _ _ hsame => hsame.answer hc) h

end PackageStaging
