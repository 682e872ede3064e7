/-
# The stages of a push

A push encodes the staging area, refreshes the session, sends everything at once and empties the
staging area when the server has accepted it.  It runs in stages, in each of which it waits for
someone else: for the one who watches it, for the session to be refreshed, or for the answer to
the commit.  `Push.step` says what it does when that has happened; everything that happens out of
turn is passed over.
-/
import PackageStaging.Payload
import PackageStaging.Push.Coordinator
import PackageStaging.Wire.Messages

namespace PackageStaging

/-- The phases of a push as they are announced. -/
inductive Phase where
  | encoding
  | refreshing
  | uploading
  | complete
deriving DecidableEq, Repr

/-- The announcement of a phase. -/
def Phase.text : Phase → String
  | .encoding => "Encoding commits"
  | .refreshing => "Refreshing session"
  | .uploading => "Uploading"
  | .complete => "Done"

/-- What the one who watches a push is told. -/
inductive Event where
  | phase (p : Phase)
  | message (text : String)
  | progress (fraction : Binary64)
  | failure (e : Error)
deriving DecidableEq, Repr

/-- What a push has done. -/
structure PushOutcome where
  /-- The number of sections with a commit. -/
  sections : Nat
  /-- The number of packages that were uploaded. -/
  packages : Nat
  /-- Whether the listing of sections should be fetched again. -/
  reloadSections : Bool
deriving DecidableEq, Repr

/-- What a push asks of others. -/
inductive Demand where
  /-- The one who watches is to be told something. -/
  | tell (e : Event)
  /-- The session is to be refreshed. -/
  | refresh
  /-- The payload is to be sent. -/
  | commit (p : Payload)
deriving DecidableEq, Repr

/-- The event that a demand tells. -/
def Demand.event? : Demand → Option Event
  | .tell e => some e
  | _ => none

/-- The payload that a demand sends. -/
def Demand.payload? : Demand → Option Payload
  | .commit p => some p
  | _ => none

/-- The answer to a commit. -/
abbrev CommitAnswer := Except Error CommitResponse

/-- What a push is waiting for. -/
inductive Stage where
  /-- The first phase is being announced; the coordinator was idle before. -/
  | starting
  /-- The staging area cannot be encoded, and that is being told.  No slot is held. -/
  | refused (e : Error)
  /-- The summary is being told.  From here on the slot is held. -/
  | summing (p : Payload)
  /-- The refresh of the session is being announced. -/
  | announcingRefresh (p : Payload)
  /-- The session is being refreshed. -/
  | refreshing (p : Payload)
  /-- The upload is being announced. -/
  | announcingUpload (p : Payload)
  /-- The payload is being sent. -/
  | uploading (p : Payload)
  /-- A fraction is being told while the payload is being sent. -/
  | reporting (p : Payload)
  /-- A fraction is being told after the answer has come. -/
  | draining (p : Payload) (answer : CommitAnswer)
  /-- A failure is being told. -/
  | failing (e : Error)
  /-- The last phase is being announced; the staging area is empty. -/
  | finishing (o : PushOutcome)
  /-- The push is over. -/
  | ended (result : Except Error PushOutcome)
  /-- The push was given up while it was waiting. -/
  | abandoned

/-- Whether a push holds the slot of its coordinator in this stage. -/
def Stage.holdsSlot : Stage → Bool
  | .starting | .refused _ | .ended _ | .abandoned => false
  | _ => true

/-- A push: its staging area, its stage and what it has asked for so far. -/
structure Push where
  /-- The staging area that it pushes. -/
  area : StagingArea
  /-- What it is waiting for. -/
  stage : Stage
  /-- The fractions that were taken down and have not been told. -/
  queue : List Binary64
  /-- What it has asked for, the first demand first. -/
  history : List Demand

/-- Something that happens to a push. -/
inductive Happening where
  /-- The one who watches has taken notice. -/
  | told
  /-- The session has been refreshed, or not. -/
  | refreshed (result : Except Error Unit)
  /-- Whoever sends the payload says how many bytes of how many have been sent. -/
  | sent (bytes total : Nat)
  /-- The push takes up the next fraction that is to be told. -/
  | heard
  /-- The commit has been answered, or has failed. -/
  | answered (answer : CommitAnswer)
  /-- The push is given up. -/
  | dropped

namespace Push

/-- The events that were told, in order. -/
def events (p : Push) : List Event := p.history.filterMap Demand.event?

/-- The payload that was sent, if the push came so far. -/
def payload? (p : Push) : Option Payload := p.history.findSome? Demand.payload?

/-- What became of the push, if it is over. -/
def result? (p : Push) : Option (Except Error PushOutcome) :=
  match p.stage with
  | .ended r => some r
  | _ => none

/-- The push in a stage, in which it asks for something. -/
def asking (p : Push) (stage : Stage) (d : Demand) : Push :=
  { p with stage := stage, history := p.history ++ [d] }

/-- The push after its end. -/
def ending (p : Push) (r : Except Error PushOutcome) : Push := { p with stage := .ended r }

/-- The push that tells its failure. -/
def fail (p : Push) (e : Error) : Push := p.asking (.failing e) (.tell (.failure e))

/-- A new push of a staging area; it ends at once if another one is running. -/
def start (c : Coordinator) (area : StagingArea) : Push :=
  let p : Push := ⟨area, .starting, [], []⟩
  if c.isInFlight then p.ending (.error .pushInFlight)
  else p.asking .starting (.tell (.phase .encoding))

/-- The message about what is pushed. -/
def summary (packages sections : Nat) : String :=
  "Pushing " ++ toString packages ++ " packages across " ++ toString sections ++ " sections"

/-- Encodes the staging area and takes the slot, in this order. -/
def encode (c : Coordinator) (p : Push) : Coordinator × Push :=
  match Payload.encode p.area with
  | .error e => (c, p.asking (.refused e) (.tell (.failure e)))
  | .ok payload =>
    match c.begin? with
    | none => (c, p.ending (.error .pushInFlight))
    | some c =>
      (c, p.asking (.summing payload)
        (.tell (.message (summary payload.packageCount p.area.size))))

/-- What the push does with the answer to its commit, after all fractions have been told. -/
def settle (p : Push) (payload : Payload) : CommitAnswer → Push
  | .error e => p.fail e
  | .ok response =>
    if response.isOk then
      { p with area := .empty }.asking (.finishing ⟨p.area.size, payload.packageCount, true⟩)
        (.tell (.phase .complete))
    else p.fail (.backend ("commit rejected: " ++ response.describe))

/-- What the push does once the answer has come: it tells the next fraction, or settles. -/
def drain (p : Push) (payload : Payload) (answer : CommitAnswer) : Push :=
  match p.queue with
  | f :: fs =>
    { p with queue := fs }.asking (.draining payload answer) (.tell (.progress f))
  | [] => p.settle payload answer

/-- What the push does when the one who watches has taken notice. -/
def afterTold (c : Coordinator) (p : Push) : Coordinator × Push :=
  match p.stage with
  | .starting => p.encode c
  | .refused e => (c, p.ending (.error e))
  | .summing payload =>
    (c, p.asking (.announcingRefresh payload) (.tell (.phase .refreshing)))
  | .announcingRefresh payload => (c, p.asking (.refreshing payload) .refresh)
  | .announcingUpload payload => (c, p.asking (.uploading payload) (.commit payload))
  | .reporting payload => (c, { p with stage := .uploading payload })
  | .draining payload answer => (c, p.drain payload answer)
  | .failing e => (.idle, p.ending (.error e))
  | .finishing o => (.idle, p.ending (.ok o))
  | _ => (c, p)

/-- What a push does when something happens, and what becomes of its coordinator. -/
def step (c : Coordinator) (p : Push) : Happening → Coordinator × Push
  | .told => p.afterTold c
  | .refreshed result =>
    match p.stage, result with
    | .refreshing payload, .ok () =>
      (c, p.asking (.announcingUpload payload) (.tell (.phase .uploading)))
    | .refreshing _, .error e => (c, p.fail e)
    | _, _ => (c, p)
  | .sent bytes total =>
    if p.payload?.isSome then
      let (c, news) := c.record bytes total
      (c, { p with queue := p.queue ++ news.toList })
    else (c, p)
  | .heard =>
    match p.stage, p.queue with
    | .uploading payload, f :: fs =>
      (c, { p with queue := fs }.asking (.reporting payload) (.tell (.progress f)))
    | _, _ => (c, p)
  | .answered answer =>
    match p.stage with
    | .uploading payload => (c, p.drain payload answer)
    | _ => (c, p)
  | .dropped =>
    match p.stage with
    | .ended _ => (c, p)
    | stage => (if stage.holdsSlot then .idle else c, { p with stage := .abandoned })

end Push

end PackageStaging
