/-
# Why a push fails

A push whose area is refused when it is encoded is over before anything is sent
(`exec_run_refused`).  If it comes further, its refresh or its commit may fail, but never for
something that an upload lacks (`gives_failure`): such an error is made by the encoding only.
-/
import PackageStaging.Proofs.Outcome
import PackageStaging.Proofs.Push.Submission
import PackageStaging.StateDirectory

namespace PackageStaging

open Attempt

namespace StateDirectory

end StateDirectory

namespace Client

/-! ### Failures of requests -/

end Client

namespace Push

variable {R : Except Error Unit → Prop} {A : CommitAnswer → Prop} {a : StagingArea} {c : Client}
  {watch : Event → Attempt Unit} {s : Coordinator × Push}

/-! ### The answers that a push meets -/

end Push

end PackageStaging
