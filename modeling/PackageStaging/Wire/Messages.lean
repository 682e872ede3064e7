/-
# Sessions and messages as JSON

How a session is kept in a file, and what the server is sent and answers.
-/
import PackageStaging.Json.Reader
import PackageStaging.Json.Value
import PackageStaging.Session

namespace PackageStaging

/-- What the server answers to a commit. -/
structure CommitResponse where
  /-- `ok` if the commit was applied. -/
  status : Option String
  /-- Where older servers report the same. -/
  result : Option String
deriving DecidableEq, Repr

namespace CommitResponse

/-- What the server reports. -/
def report? (r : CommitResponse) : Option String := r.status.or r.result

/-- Whether the commit was applied. -/
def isOk (r : CommitResponse) : Bool := r.report? = some "ok"

/-- What the server reports, in words. -/
def describe (r : CommitResponse) : String := r.report?.getD "missing status"

end CommitResponse

/-- The request to copy all packages of a branch onto another one. -/
structure SnapRequest where
  sourceBranch : String
  targetBranch : String
  architecture : String
deriving DecidableEq, Repr

/-- The state of a synchronisation as the server tells it. -/
structure SyncMessage where
  /-- The kind of message, normally `sync`. -/
  kind : String
  /-- When it happened, in the server's words. -/
  time : String
  /-- Whether a synchronisation is running. -/
  started : Bool
deriving DecidableEq, Repr

/-- The body of an answer that reports a failure. -/
structure FailureReport where
  message : Option String
  error : Option String
deriving DecidableEq, Repr

namespace Wire

open Json (Value Reader Record Member)

/-! ### Sessions and tokens -/

/-- A session as JSON. -/
def sessionValue (s : Session) : Value :=
  .object [("user", .text s.user), ("access_token", .text s.accessToken),
    ("refresh_token", .textOrNull s.refreshToken), ("issued_at", .text s.issuedAt.text)]

/-- Reads a timestamp. -/
def readTimestamp : Reader Timestamp :=
  Json.checked (Json.stringAs "an RFC 3339 formatted date and time string") fun t =>
    (Timestamp.parse t).mapError Timestamp.Fault.message

/-- The fields of a session that have been read. -/
structure SessionFields where
  user : Option String
  accessToken : Option String
  refreshToken : Option (Option String)
  issuedAt : Option Timestamp

/-- A session; the refresh token may be missing. -/
def sessionRecord : Record SessionFields Session where
  wanted := Json.structName "Session"
  members := [
    { key := "user", present := (·.user.isSome), mayEnd := false,
      read := fun σ s => do let (v, s) ← Json.string s; return ({ σ with user := v }, s) },
    { key := "access_token", present := (·.accessToken.isSome), mayEnd := false,
      read := fun σ s => do let (v, s) ← Json.string s; return ({ σ with accessToken := v }, s) },
    { key := "refresh_token", present := (·.refreshToken.isSome), mayEnd := true,
      read := fun σ s => do
        let (v, s) ← Json.nullable Json.string s
        return ({ σ with refreshToken := some v }, s) },
    { key := "issued_at", present := (·.issuedAt.isSome), mayEnd := false,
      read := fun σ s => do
        let (v, s) ← readTimestamp s
        return ({ σ with issuedAt := v }, s) }]
  blank := ⟨none, none, none, none⟩
  finish := fun σ => do
    let user ← Json.required "user" σ.user
    let accessToken ← Json.required "access_token" σ.accessToken
    let issuedAt ← Json.required "issued_at" σ.issuedAt
    return ⟨user, accessToken, σ.refreshToken.join, issuedAt⟩

/-- Reads a session. -/
def readSession : Reader Session := sessionRecord.read

/-- The fields of new tokens that have been read. -/
structure TokenFields where
  accessToken : Option String
  refreshToken : Option (Option String)
  tokenType : Option (Option String)

/-- New tokens. -/
def tokensRecord : Record TokenFields Tokens where
  wanted := Json.structName "TokenResponse"
  members := [
    { key := "access_token", present := (·.accessToken.isSome), mayEnd := false,
      read := fun σ s => do let (v, s) ← Json.string s; return ({ σ with accessToken := v }, s) },
    { key := "refresh_token", present := (·.refreshToken.isSome), mayEnd := true,
      read := fun σ s => do
        let (v, s) ← Json.nullable Json.string s
        return ({ σ with refreshToken := some v }, s) },
    { key := "token_type", present := (·.tokenType.isSome), mayEnd := true,
      read := fun σ s => do
        let (v, s) ← Json.nullable Json.string s
        return ({ σ with tokenType := some v }, s) }]
  blank := ⟨none, none, none⟩
  finish := fun σ => do
    let accessToken ← Json.required "access_token" σ.accessToken
    return ⟨accessToken, σ.refreshToken.join, σ.tokenType.join⟩

/-- Reads new tokens. -/
def readTokens : Reader Tokens := tokensRecord.read

/-- The request for a session as JSON. -/
def loginValue (name password : String) : Value :=
  .object [("name", .text name), ("password", .text password), ("response_type", .text "bearer")]

/-! ### Other messages -/

/-- Two optional texts, as members of these names. -/
def textPairMembers (first second : String) (mayEnd : Bool) :
    List (Member (Option (Option String) × Option (Option String))) := [
  { key := first, present := (·.1.isSome), mayEnd := mayEnd,
    read := fun σ s => do
      let (v, s) ← Json.nullable Json.string s
      return ((some v, σ.2), s) },
  { key := second, present := (·.2.isSome), mayEnd := mayEnd,
    read := fun σ s => do
      let (v, s) ← Json.nullable Json.string s
      return ((σ.1, some v), s) }]

/-- The answer to a commit. -/
def commitResponseRecord :
    Record (Option (Option String) × Option (Option String)) CommitResponse where
  wanted := Json.structName "CommitResponse"
  members := textPairMembers "status" "result" true
  blank := (none, none)
  finish := fun σ => .ok ⟨σ.1.join, σ.2.join⟩

/-- Reads the answer to a commit. -/
def readCommitResponse : Reader CommitResponse := commitResponseRecord.read

/-- The answer to a commit as JSON; what is not there is left out. -/
def commitResponseValue (r : CommitResponse) : Value :=
  let member (key : String) : Option String → List (String × Value)
    | some t => [(key, .text t)]
    | none => []
  .object (member "status" r.status ++ member "result" r.result)

/-- The report of a failure. -/
def failureRecord : Record (Option (Option String) × Option (Option String)) FailureReport where
  wanted := Json.structName "ErrorBody"
  members := textPairMembers "message" "error" false
  blank := (none, none)
  finish := fun σ => .ok ⟨σ.1.join, σ.2.join⟩

/-- Reads the report of a failure. -/
def readFailure : Reader FailureReport := failureRecord.read

/-- Three texts that are being read. -/
structure ThreeTexts where
  first : Option String
  second : Option String
  third : Option String

/-- The request to copy a branch. -/
def snapRecord : Record ThreeTexts SnapRequest where
  wanted := Json.structName "SnapRequest"
  members := [
    { key := "sourceBranch", present := (·.first.isSome), mayEnd := false,
      read := fun σ s => do let (v, s) ← Json.string s; return ({ σ with first := v }, s) },
    { key := "targetBranch", present := (·.second.isSome), mayEnd := false,
      read := fun σ s => do let (v, s) ← Json.string s; return ({ σ with second := v }, s) },
    { key := "architecture", present := (·.third.isSome), mayEnd := false,
      read := fun σ s => do let (v, s) ← Json.string s; return ({ σ with third := v }, s) }]
  blank := ⟨none, none, none⟩
  finish := fun σ => do
    let source ← Json.required "sourceBranch" σ.first
    let target ← Json.required "targetBranch" σ.second
    let architecture ← Json.required "architecture" σ.third
    return ⟨source, target, architecture⟩

/-- Reads the request to copy a branch. -/
def readSnap : Reader SnapRequest := snapRecord.read

/-- The request to copy a branch as JSON. -/
def snapValue (r : SnapRequest) : Value :=
  .object [("sourceBranch", .text r.sourceBranch), ("targetBranch", .text r.targetBranch),
    ("architecture", .text r.architecture)]

/-- The fields of a synchronisation message that have been read. -/
structure SyncFields where
  kind : Option String
  time : Option String
  started : Option Bool

/-- A synchronisation message; its texts may be missing. -/
def syncRecord : Record SyncFields SyncMessage where
  wanted := Json.structName "SyncMessage"
  members := [
    { key := "type", present := (·.kind.isSome), mayEnd := true,
      read := fun σ s => do let (v, s) ← Json.string s; return ({ σ with kind := v }, s) },
    { key := "when", present := (·.time.isSome), mayEnd := true,
      read := fun σ s => do let (v, s) ← Json.string s; return ({ σ with time := v }, s) },
    { key := "started", present := (·.started.isSome), mayEnd := false,
      read := fun σ s => do let (v, s) ← Json.boolean s; return ({ σ with started := v }, s) }]
  blank := ⟨none, none, none⟩
  finish := fun σ => do
    let started ← Json.required "started" σ.started
    return ⟨σ.kind.getD "", σ.time.getD "", started⟩

/-- Reads a synchronisation message. -/
def readSync : Reader SyncMessage := syncRecord.read

/-- A synchronisation message as JSON. -/
def syncValue (m : SyncMessage) : Value :=
  .object [("type", .text m.kind), ("when", .text m.time), ("started", .boolean m.started)]

end Wire

end PackageStaging
