/-
# Pushing with a client

A push that is alone on its coordinator, with a client that refreshes the session and sends the
payload.  What the push tells is shown in the order in which it is told.
-/
import PackageStaging.Client
import PackageStaging.Push.Stage

namespace PackageStaging.Push

/-- A push and its coordinator after many things have happened, one after the other. -/
def steps (c : Coordinator) (p : Push) (hs : List Happening) : Coordinator × Push :=
  hs.foldl (fun s h => s.2.step s.1 h) (c, p)

/-- Lets things happen to a push, and shows what it tells meanwhile. -/
def attend (watch : Event → Attempt Unit) (s : Coordinator × Push) (hs : List Happening) :
    Attempt (Coordinator × Push) := do
  let t := steps s.1 s.2 hs
  (t.2.events.drop s.2.events.length).forM watch
  return t

/-- What happens to a push while its payload is sent and until it is over. -/
def sending (reports : List Http.SendingProgress) (answer : CommitAnswer) : List Happening :=
  reports.map (fun r => .sent r.sent r.total) ++
    .answered answer :: List.replicate (reports.length + 1) .told

/-- The client after a refresh, and whether the refresh failed. -/
def refreshed (c : Client) : Attempt (Client × Except Error Unit) := do
  match ← Attempt.outcome c.refresh with
  | .ok renewed => return (renewed, .ok ())
  | .error e => return (c, .error e)

/-- Refreshes the session if the push waits for that. -/
def runRefresh (watch : Event → Attempt Unit) (c : Client) (s : Coordinator × Push) :
    Attempt (Client × Coordinator × Push) := do
  match s.2.stage with
  | .refreshing _ =>
    let (renewed, result) ← refreshed c
    return (renewed, ← attend watch s [.refreshed result, .told])
  | _ => return (c, s)

/-- Sends the payload if the push waits for that. -/
def runCommit (watch : Event → Attempt Unit) (c : Client) (s : Coordinator × Push) :
    Attempt (Coordinator × Push) := do
  match s.2.stage with
  | .uploading payload =>
    let (reports, answer) ← c.commit payload
    attend watch s (sending reports answer)
  | _ => return s

/-- Pushes a staging area, and gives the client and the push after its end. -/
def run (watch : Event → Attempt Unit) (c : Client) (a : StagingArea) :
    Attempt (Client × Push) := do
  let p := start .idle a
  p.events.forM watch
  let s ← attend watch (.idle, p) [.told, .told, .told]
  let (renewed, s) ← runRefresh watch c s
  let (_, p) ← runCommit watch renewed s
  return (renewed, p)

end PackageStaging.Push
