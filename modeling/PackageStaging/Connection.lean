/-
# Connections

A client that uses the session of the environment or of the state directory.  A stored session
whose tokens were renewed meanwhile is stored again; one from the environment never is.
-/
import PackageStaging.Client
import PackageStaging.Config
import PackageStaging.StateDirectory

namespace PackageStaging

/-- A client, and where its session came from. -/
structure Connection where
  client : Client
  source : SessionSource
deriving DecidableEq, Repr

namespace Connection

/-- The connection to the server of a configuration. -/
def opened (c : Config) (d : StateDirectory) : Attempt Connection := do
  let (source, session) ← d.authenticate
  return ⟨⟨c.serverUrl, some session⟩, source⟩

/-- Stores the session of the connection if it was stored before. -/
def keepSession (c : Connection) (d : StateDirectory) : Attempt Unit :=
  match c.source, c.client.session with
  | .stored, some s => d.saveSession s
  | _, _ => pure ()

end Connection

end PackageStaging
