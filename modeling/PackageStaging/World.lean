/-
# Worlds

Everything that a program can see and change: files, the environment, the clock and the network.
`Program.run` is a program run from its beginning to its end in a world.
-/
import PackageStaging.FileTree
import PackageStaging.Http.Transmission
import PackageStaging.NameMap
import PackageStaging.Program

namespace PackageStaging

/-- What a program runs in. -/
structure World where
  files : FileTree
  /-- The way from the root to the working directory. -/
  here : Route
  /-- The variables of the environment. -/
  environment : NameMap String
  clock : Timestamp
  /-- What becomes of a request; the number is that of the requests before.  Of the files it is told
  how many bytes are ready each time that one is read. -/
  network : Nat → Http.Request → Http.Fate (List Nat)
  /-- The requests that were made, in order, and what became of them. -/
  requests : List (Http.Request × Http.Delivery)
  /-- What was printed for whoever asked. -/
  output : String
  /-- What was printed about things that went wrong. -/
  diagnosis : String

namespace World

/-- A world without files in which nobody answers. -/
def empty : World where
  files := .empty
  here := []
  environment := .empty
  clock := ⟨0, 0⟩
  network := fun _ _ => .unreachable
  requests := []
  output := ""
  diagnosis := ""

/-- The requests that were received by someone. -/
def received (w : World) : List Http.Request :=
  (w.requests.filter fun e => e.2.isReceived).map (·.1)

/-- The path of the working directory. -/
def workingDirectory (w : World) : Path :=
  if w.here = [] then ⟨[Path.slash]⟩ else ⟨w.here.flatMap fun s => Path.slash :: s⟩

/-- The world with other files, or as it was if the change is refused. -/
def change (w : World) (r : Except SystemFault FileTree) : Except SystemFault Unit × World :=
  match r with
  | .ok files => (.ok (), { w with files })
  | .error f => (.error f, w)

/-- The contents of files, up to the first one that cannot be read. -/
def contents (w : World) : List Path → List Bytes
  | [] => []
  | p :: ps =>
    match w.files.read w.here p with
    | .ok content => content :: w.contents ps
    | .error _ => []

/-- What becomes of a request, whose files are read meanwhile. -/
def delivery (w : World) (r : Http.Request) : Http.Delivery :=
  (w.network w.requests.length r).map (Http.readAll (w.contents r.body.paths))

/-- The answer to a call, and the world after it. -/
def answer (w : World) : (c : Call) → c.Answer × World
  | .readFile p => (w.files.read w.here p, w)
  | .writeFile p content => w.change (w.files.write w.here p content)
  | .replaceFile source target => w.change (w.files.replaceFile w.here source target)
  | .removeFile p => w.change (w.files.removeFile w.here p)
  | .makeDirectory p => w.change (w.files.makeDirectory w.here p)
  | .isDirectory p => (w.files.isDirectory w.here p, w)
  | .isFile p => (w.files.isFile w.here p, w)
  | .size p => (w.files.size w.here p, w)
  | .workingDirectory => (w.workingDirectory, w)
  | .environment name => (w.environment.get? name, w)
  | .now => (w.clock, w)
  | .print .standard text => ((), { w with output := w.output ++ text })
  | .print .diagnostic text => ((), { w with diagnosis := w.diagnosis ++ text })
  | .prompt _ _ => (none, w)
  | .send r =>
    let d := w.delivery r
    (d, { w with requests := w.requests ++ [(r, d)] })

end World

namespace Program

variable {α β : Type}

/-- What a program results in, and the world that it leaves behind. -/
def run : Program α → World → α × World
  | .done a, w => (a, w)
  | .call c next, w =>
    let (a, w) := w.answer c
    (next a).run w

@[simp] theorem run_done (a : α) (w : World) : (done a).run w = (a, w) := rfl

theorem run_bind (p : Program α) (f : α → Program β) (w : World) :
    (p.bind f).run w = (f (p.run w).1).run (p.run w).2 := by
  induction p generalizing w with
  | done => rfl
  | call c next ih => simp only [call_bind, run, ih]

end Program

end PackageStaging
