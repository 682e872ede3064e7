/-
# Commands for the server

Logging in and out, asking the server for something, and pushing the staging area.
-/
import PackageStaging.CommandLine.Local
import PackageStaging.Push.Submission

namespace PackageStaging.CommandLine

/-! ### Sessions -/

/-- A line from the one who sits at the terminal. -/
def askFor (label : String) (isSecret : Bool) : Attempt String := do
  match ← Attempt.ask (.prompt label isSecret) with
  | some line => return line
  | none => Attempt.fail (.internal "prompt failed: IO error: not a terminal")

/-- Opens a session and stores it. -/
def runLogin (c : Config) (user : Option String) : Attempt Unit := do
  let d ← openState c
  let name ← match user with
    | some name => pure name
    | none => askFor "User name" false
  let password ← askFor "Password" true
  let client : Client := ⟨c.serverUrl, none⟩
  let (_, session) ← client.login name password
  d.saveSession session
  say (doneLine ("Logged in to " ++ c.serverUrl.text ++ " as " ++ name))

/-- Closes the stored session, if the server allows it, and forgets it. -/
def runLogout (c : Config) : Attempt Unit := do
  let d ← openState c
  match ← d.loadSession with
  | none => say "Not logged in"
  | some session =>
    let client : Client := ⟨c.serverUrl, some session⟩
    match ← Attempt.outcome client.logout with
    | .ok _ => pure ()
    | .error e => complain ("Could not revoke session on server: " ++ e.message)
    d.clearSession
    say (doneLine "Logged out")

/-! ### Questions and wishes -/

/-- The sections of a listing as a tree. -/
def listingLines (listing : List SectionAddress) : List String :=
  (Listing.branches listing).flatMap fun branch =>
    branch :: (Listing.repositories listing branch).map fun repository =>
      "  " ++ repository ++ " " ++ " ".intercalate (Listing.architectures listing branch repository)

/-- Shows the sections of the server. -/
def runSections (c : Config) : Attempt Unit := do
  let d ← openState c
  let connection ← Connection.opened c d
  let listing ← connection.client.sections
  connection.keepSession d
  if listing = [] then say "Server has no sections" else (listingLines listing).forM say

/-- Makes the server fetch new packages. -/
def runSync (c : Config) : Attempt Unit := do
  let d ← openState c
  let connection ← Connection.opened c d
  connection.client.sync
  connection.keepSession d
  say (doneLine "Sync started")

/-- Makes the server copy a branch onto another one. -/
def runSnap (c : Config) (what : SnapRequest) : Attempt Unit := do
  let d ← openState c
  let connection ← Connection.opened c d
  connection.client.snap what
  connection.keepSession d
  say (doneLine ("Snapshot " ++ fromTo what.sourceBranch what.targetBranch ++ " ("
    ++ what.architecture ++ ")"))

/-! ### Pushing -/

/-- What is said about a failed push, if anything. -/
def adviceOn : Error → Option String
  | .unauthorized => some sessionExpired
  | .http _ => some maybeApplied
  | _ => none

/-- Pushes the staging area.  Once the server has accepted it, the emptied area is saved before
anything else is done; a session that cannot be stored and a listing that cannot be fetched
afterwards do no harm. -/
def runPush (c : Config) : Attempt Unit := do
  let d ← openState c
  let area ← d.loadArea
  if area.isEmpty then say nothingStaged
  else
    let connection ← Connection.opened c d
    let (client, push) ← Push.run showEvent connection.client area
    let renewed : Connection := ⟨client, connection.source⟩
    match push.result? with
    | some (.ok outcome) =>
      d.saveArea push.area
      let _ ← Attempt.outcome (renewed.keepSession d)
      say (doneLine (pushedText outcome))
      if outcome.reloadSections then
        let _ ← Attempt.outcome client.sections
    | some (.error e) =>
      let _ ← Attempt.outcome (renewed.keepSession d)
      (adviceOn e).toList.forM complain
      Attempt.fail e
    | none => pure ()

end PackageStaging.CommandLine
