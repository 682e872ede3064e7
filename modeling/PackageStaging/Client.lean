/-
# The client of the server

What is asked of the server, and how the session changes with its answers: a login opens it, a
logout closes it, and a refresh renews its tokens if there are new ones in the answer.  Nothing
else changes it, and without a session nothing but a login is sent.
-/
import PackageStaging.Http.Transmission
import PackageStaging.Payload
import PackageStaging.Program
import PackageStaging.Url.Relative
import PackageStaging.Wire.Messages

namespace PackageStaging

/-- A server, and the session that is open on it. -/
structure Client where
  /-- The address of the server, as that of a directory. -/
  server : Url
  session : Option Session
deriving DecidableEq, Repr

namespace Client

/-! ### Requests -/

/-- The names that lead to the parts of the server's interface. -/
def endpoint (names : List String) : List (List Char) := ("api" :: names).map String.toList

/-- The way from the server's address to a part of its interface. -/
def reference (names : List String) : String := String.ofList (Text.joined '/' (endpoint names))

/-- The address of a part of the server's interface.  There is one, because others can be relative
to the server's.  Its host is the server's, which is not read again: by which rules the hosts in
other addresses are read makes no difference. -/
def url (c : Client) (names : List String) : Url :=
  match c.server.join (reference names) with
  | .ok u => u
  | .error _ => c.server

/-- A request to a part of the server's interface. -/
def request (c : Client) (method : Http.Method) (names : List String) (token : Option String)
    (body : Http.Body) : Http.Request :=
  ⟨method, (c.url names).requested, (c.url names).credentials?, token, body⟩

/-- The token of the session, which has to be open. -/
def requireToken (c : Client) : Attempt String :=
  match c.session with
  | some s => pure s.accessToken
  | none => Attempt.fail .notLoggedIn

/-- Whether requests to an address can be sent. -/
def isSupported (u : Url) : Bool := u.scheme = "http".toList || u.scheme = "https".toList

/-- Sends a request, and gives what was read of the files of its body together with the reply. -/
def deliver (r : Http.Request) : Attempt (List Bytes × Except Error Http.Reply) := do
  if !(r.token.all fun t => Http.isHeaderValue (Http.authorization t)) then
    return ([], .error (.http .unbuildable))
  else if !isSupported r.url then
    return ([], .error (.http (.unsupported r.url.text)))
  else
    let d ← Attempt.ask (.send r)
    match d.reply? with
    | some reply => return (d.reads, .ok reply)
    | none => return (d.reads, .error (.http (.unanswered r.url.text)))

/-! ### Replies -/

/-- What the server says about a failure: a member of a JSON document, or else all that it says.  It
says nothing if its reply broke off. -/
def complaint (reply : Http.Reply) : String :=
  let text := Utf8.lossy (reply.body.getD [])
  match Json.decode Wire.readFailure (Utf8.sourceOfString text) with
  | .ok report => (report.message.or report.error).getD text
  | .error _ => text

/-- A reply that says that the request was carried out. -/
def check (reply : Http.Reply) : Except Error Http.Reply :=
  if reply.status = 401 then .error .unauthorized
  else if reply.isSuccess then .ok reply
  else .error (.backend (reply.statusText ++ ": " ++ complaint reply))

/-- The body of a reply, which must not have broken off. -/
def content (reply : Http.Reply) : Except Error Bytes :=
  match reply.body with
  | some body => .ok body
  | none => .error (.http .undecodable)

/-- What the body of a reply holds. -/
def decoded {α : Type} (value : Json.Reader α) (reply : Http.Reply) : Except Error α := do
  let body ← content reply
  (Json.decode value (Utf8.source body)).mapError fun _ => .http .undecodable

/-- Sends a request that has no files in its body, and gives the checked reply. -/
def fetch (r : Http.Request) : Attempt Http.Reply := do
  let (_, reply) ← deliver r
  Attempt.ofExcept (reply >>= check)

/-! ### Sessions -/

/-- Opens a session. -/
def login (c : Client) (name password : String) : Attempt (Client × Session) := do
  let body : Http.Body := .json (Wire.loginValue name password).compactText
  let reply ← fetch (c.request .post ["auth"] none body)
  let tokens ← Attempt.ofExcept (decoded Wire.readTokens reply)
  let session := Session.ofTokens name tokens (← Attempt.ask .now)
  return ({ c with session := some session }, session)

/-- Closes the session. -/
def logout (c : Client) : Attempt Client := do
  let token ← c.requireToken
  let _ ← fetch (c.request .post ["auth", "revoke"] token .empty)
  return { c with session := none }

/-- Asks for new tokens.  An answer without any is no failure. -/
def refresh (c : Client) : Attempt Client := do
  match c.session with
  | none => Attempt.fail .notLoggedIn
  | some session =>
    let reply ← fetch (c.request .get ["auth", "refresh"] session.refreshCredential .empty)
    let body ← Attempt.ofExcept (content reply)
    match Json.decode Wire.readTokens (Utf8.sourceOfString (Utf8.lossy body)) with
    | .error _ => return c
    | .ok tokens => return { c with session := some (session.renew tokens (← Attempt.ask .now)) }

/-! ### Packages -/

/-- The sections of the server. -/
def sections (c : Client) : Attempt (List SectionAddress) := do
  let token ← c.requireToken
  let reply ← fetch (c.request .get ["sections"] token .empty)
  Attempt.ofExcept (decoded (Json.list Wire.readSection) reply)

/-- Makes the server fetch new packages. -/
def sync (c : Client) : Attempt Unit := do
  let token ← c.requireToken
  let _ ← fetch (c.request .post ["packages", "sync"] token .empty)

/-- Copies all packages of a branch onto another one. -/
def snap (c : Client) (what : SnapRequest) : Attempt Unit := do
  let token ← c.requireToken
  let body : Http.Body := .json (Wire.snapValue what).compactText
  let _ ← fetch (c.request .post ["packages", "snap", "branch"] token body)

/-- The sizes of files; one that cannot be looked at is an error. -/
def sizesOf : List Path → Attempt (List Nat)
  | [] => pure []
  | p :: ps => do
    let size ← Attempt.ofSystem (← Attempt.ask (.size p))
    return size :: (← sizesOf ps)

/-- A part of a payload as a field of a form. -/
def fieldOf : Part → Http.Field
  | .file field a => .file field a.fileName a.path
  | .text field value => .text field value

/-- The form in which a payload is sent, when the files of its fields have these sizes. -/
def formOf (p : Payload) (sizes : List Nat) : Http.Body := .form (p.parts.map fieldOf) sizes

/-- The size of all files of a payload, and the sizes of those that are fields of its form.  So each
file is looked at twice. -/
def measure (p : Payload) : Attempt (Nat × List Nat) := do
  let all ← sizesOf (p.artifacts.map Artifact.path)
  let sizes ← sizesOf (formOf p []).paths
  return (all.foldr (· + ·) 0, sizes)

/-- Sends a payload, and gives what is reported meanwhile together with the answer. -/
def commit (c : Client) (p : Payload) :
    Attempt (List Http.SendingProgress × Except Error CommitResponse) := do
  match ← Attempt.outcome (measure p) with
  | .error e => return ([], .error e)
  | .ok (total, sizes) =>
    match c.session with
    | none => return ([], .error .notLoggedIn)
    | some session =>
      let body := formOf p sizes
      let (reads, reply) ←
        deliver (c.request .post ["packages", "commit"] session.accessToken body)
      return ((Http.Transmission.ofReads total body.paths reads).calls,
        reply >>= check >>= decoded Wire.readCommitResponse)

end Client

end PackageStaging
