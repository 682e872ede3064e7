/-
# Attempts that stop somewhere

A change of a file may be refused, and a content may be written only in part (`World.Meets`); and
whoever runs a program may be killed at any point of it.  `Program.Stops` is what can come of it:
the result, if there is one, and the world that is left behind.  That nothing goes wrong is one
possibility (`Program.stops_run`).
-/
import PackageStaging.Proofs.Running

namespace PackageStaging

/-- What a call can meet with: its answer, and the world after it.  A file that is there is not
said to be missing when it is to be removed. -/
inductive World.Meets (w : World) : (c : Call) → c.Answer → World → Prop
  | carriedOut (c : Call) : w.Meets c (w.answer c).1 (w.answer c).2
  | writeRefused (p : Path) (content : Bytes) (f : SystemFault) :
      w.Meets (.writeFile p content) (.error f) w
  /-- Only the first bytes are written. -/
  | writeCut {p : Path} {content : Bytes} {n : Nat} {files : FileTree} (f : SystemFault)
      (h : w.files.write w.here p (content.take n) = .ok files) :
      w.Meets (.writeFile p content) (.error f) { w with files }
  | replaceRefused (source target : Path) (f : SystemFault) :
      w.Meets (.replaceFile source target) (.error f) w
  | removeRefused (p : Path) {f : SystemFault} (hf : f ≠ .noSuchEntry) :
      w.Meets (.removeFile p) (.error f) w

namespace Program

variable {α : Type}

/-- The program stops with a result, or is killed and has none. -/
inductive Stops : Program α → World → Option α → World → Prop
  | killed (p : Program α) (w : World) : Stops p w none w
  | done (a : α) (w : World) : Stops (.done a) w (some a) w
  | call {c : Call} {next : c.Answer → Program α} {w w₁ w' : World} {a : c.Answer} {r : Option α}
      (hc : w.Meets c a w₁) (hnext : Stops (next a) w₁ r w') : Stops (.call c next) w r w'

/-- Nothing has to go wrong. -/
theorem stops_run (p : Program α) (w : World) : p.Stops w (some (p.run w).1) (p.run w).2 := by
  induction p generalizing w with
  | done a => exact .done a w
  | call c next ih => exact .call (.carriedOut c) (ih _ _)

end Program

namespace Attempt

variable {α β : Type} {f : α → Attempt β} {w w' : World}

/-- The attempt stops with a result, or is killed and has none. -/
def Stops (t : Attempt α) (w : World) (r : Option (Except Error α)) (w' : World) : Prop :=
  Program.Stops t.run w r w'

lemma stops_exec (t : Attempt α) (w : World) : t.Stops w (some (t.exec w).1) (t.exec w).2 :=
  Program.stops_run t.run w

/-- Nothing is done any more. -/
lemma Stops.of_ofExcept {x : Except Error α} {r : Option (Except Error α)}
    (h : (ofExcept x).Stops w r w') : w' = w ∧ (r = none ∨ r = some x) := by
  have hdone : (Program.done x).Stops w r w' := h
  cases hdone with
  | killed => exact ⟨rfl, .inl rfl⟩
  | done => exact ⟨rfl, .inr rfl⟩

/-- The attempt is killed before the call, or goes on with the answer. -/
lemma Stops.of_ask_bind {c : Call} {g : c.Answer → Attempt β} {r : Option (Except Error β)}
    (h : (ask c >>= g).Stops w r w') :
    (r = none ∧ w' = w) ∨ ∃ a w₁, w.Meets c a w₁ ∧ (g a).Stops w₁ r w' := by
  have hcall : (Program.call c fun a => (g a).run).Stops w r w' := h
  cases hcall with
  | killed => exact .inl ⟨rfl, rfl⟩
  | call hc hnext => exact .inr ⟨_, _, hc, hnext⟩

/-- The attempt ends with what has been decided, or goes on with it. -/
lemma Stops.of_ofExcept_bind {x : Except Error α} {r : Option (Except Error β)}
    (h : (ofExcept x >>= f).Stops w r w') :
    (w' = w ∧ (r = none ∨ ∃ e, r = some (.error e))) ∨ ∃ a, x = .ok a ∧ (f a).Stops w r w' := by
  cases x with
  | error e =>
    have hfail : (ofExcept (.error e) : Attempt β).Stops w r w' := h
    obtain ⟨hw, hr⟩ := hfail.of_ofExcept
    exact .inl ⟨hw, hr.imp_right fun hr => ⟨e, hr⟩⟩
  | ok a => exact .inr ⟨a, rfl, h⟩

end Attempt

end PackageStaging
