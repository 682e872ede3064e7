/-
# The slot for a push

Pushes that share a coordinator run one at a time.  The coordinator is idle, or holds the slot of
the push that is running together with the fraction of the bytes that has been sent.  The
fraction only grows while the slot is held: `record` takes down a new fraction if it is greater
than the last one.
-/
import PackageStaging.Number.Binary64

namespace PackageStaging

/-- Whether a push is running, and how far it has come. -/
inductive Coordinator where
  /-- No push is running. -/
  | idle
  /-- A push is running, and this fraction has been sent. -/
  | inFlight (progress : Binary64)
deriving DecidableEq, Repr, Inhabited

namespace Coordinator

/-- Whether a push is running. -/
def isInFlight : Coordinator → Bool
  | .idle => false
  | .inFlight _ => true

/-- The coordinator with its slot taken by a new push, if the slot is free. -/
def begin? : Coordinator → Option Coordinator
  | .idle => some (.inFlight .zero)
  | .inFlight _ => none

/-- The fraction that has been sent; of nothing everything has been sent. -/
def fraction (sent total : Nat) : Binary64 :=
  if total = 0 then .one
  else
    let f := Binary64.ofNat sent / Binary64.ofNat total
    if f < .one then f else .one

/-- Takes down that `sent` bytes of `total` have been sent.  What comes with the coordinator is
the fraction that is to be reported, if it is news. -/
def record (c : Coordinator) (sent total : Nat) : Coordinator × Option Binary64 :=
  match c with
  | .idle => (.idle, none)
  | .inFlight progress =>
    let f := fraction sent total
    if progress < f then (.inFlight f, some f) else (.inFlight progress, none)

/-- A late record is lost on an idle coordinator. -/
@[simp] theorem record_idle (sent total : Nat) : idle.record sent total = (idle, none) := rfl

end Coordinator

end PackageStaging
