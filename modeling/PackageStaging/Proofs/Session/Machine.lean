/-
# A client as a state machine

A client is asked for one thing after another (`Client.Task`), each in a world of its own: the
server may answer anything, and clock and files may have changed.  A task has one of three courses
(`Task.Course`): no request is sent; a request is sent and has no reply or one that refuses it; or
its reply says that it was carried out, and then the reply settles what becomes of the client.  All
rules for sessions follow from the course (`Turn.lawful`).  That the right refresh token is
presented needs a look at everything before, too: the session holds what was handed out last since
it was opened (`Current.step`), so after any history the next turn keeps the rules
(`lawful_history`).
-/
import PackageStaging.Proofs.Session.Renewal

namespace PackageStaging.Client

open Attempt

/-- What a client is asked for. -/
inductive Task where
  | login (name password : String)
  | logout
  | refresh
  | sections
  | sync
  | snap (what : SnapRequest)
  | commit (p : Payload)

namespace Task

/-- Does what is asked for, and results in the client with the session that it then has. -/
def attempt (c : Client) : Task → Attempt Client
  | .login name password => do
    let (d, _) ← c.login name password
    return d
  | .logout => c.logout
  | .refresh => c.refresh
  | .sections => do
    let _ ← c.sections
    return c
  | .sync => do
    c.sync
    return c
  | .snap what => do
    c.snap what
    return c
  | .commit p => do
    let (_, answer) ← c.commit p
    let _ ← Attempt.ofExcept answer
    return c

/-- The request that is made, which needs a session unless it is a login.  The sizes are those of
the files that are sent. -/
def request? (c : Client) (sizes : List Nat) : Task → Option Http.Request
  | .login name password =>
    some (c.request .post ["auth"] none (.json (Wire.loginValue name password).compactText))
  | .logout => c.session.map fun s =>
    c.request .post ["auth", "revoke"] s.accessToken .empty
  | .refresh => c.session.map fun s =>
    c.request .get ["auth", "refresh"] s.refreshCredential .empty
  | .sections => c.session.map fun s => c.request .get ["sections"] s.accessToken .empty
  | .sync => c.session.map fun s => c.request .post ["packages", "sync"] s.accessToken .empty
  | .snap what => c.session.map fun s => c.request .post ["packages", "snap", "branch"]
    s.accessToken (.json (Wire.snapValue what).compactText)
  | .commit p => c.session.map fun s => c.request .post ["packages", "commit"] s.accessToken
    (formOf p sizes)

/-- The tokens in the body of a reply, if tokens are asked for. -/
def readTokens? (reply : Http.Reply) : Task → Option Tokens
  | .login _ _ => (decoded Wire.readTokens reply).toOption
  | .refresh => reply.body.bind fun body =>
    (Json.decode Wire.readTokens (Utf8.sourceOfString (Utf8.lossy body))).toOption
  | _ => none

/-- The client after a reply that says that the request was carried out. -/
def settled (c : Client) (now : Timestamp) (reply : Http.Reply) : Task → Except Error Client
  | .login name _ => (decoded Wire.readTokens reply).map fun tokens =>
    { c with session := some (.ofTokens name tokens now) }
  | .logout => .ok { c with session := none }
  | .refresh => (content reply).map fun _ =>
    match Task.refresh.readTokens? reply with
    | some tokens => { c with session := c.session.map fun s => s.renew tokens now }
    | none => c
  | .sections => (decoded (Json.list Wire.readSection) reply).map fun _ => c
  | .sync | .snap _ => .ok c
  | .commit _ => (decoded Wire.readCommitResponse reply).map fun _ => c

/-- The courses of a task: its result, and the requests with what became of them. -/
inductive Course (t : Task) (c : Client) (now : Timestamp) :
    Except Error Client → List Exchange → Prop
  | unsent (e : Error) : Course t c now (.error e) []
  | refused {r : Http.Request} {d : Http.Delivery} {e : Error} {sizes : List Nat}
      (hr : t.request? c sizes = some r)
      (hreply : ∀ reply, d.reply? = some reply → check reply = .error e) :
      Course t c now (.error e) [(r, d)]
  | carriedOut {r : Http.Request} {d : Http.Delivery} {reply : Http.Reply} {sizes : List Nat}
      (hr : t.request? c sizes = some r) (hreply : d.reply? = some reply)
      (hsuccess : reply.isSuccess = true) : Course t c now (t.settled c now reply) [(r, d)]

end Task

/-! ### The course of a task -/

variable {c d : Client} {t : Task} {now : Timestamp} {outcome : Except Error Client}
  {log : List Exchange} {tokens : List Tokens} {s : Session}

lemma check_eq_ok_iff {reply reply' : Http.Reply} :
    check reply = .ok reply' ↔ reply.isSuccess = true ∧ reply' = reply := by
  rw [check]
  by_cases h401 : reply.status = 401
  · have hnot : reply.isSuccess = false := by simp [Http.Reply.isSuccess, h401]
    simp [h401, hnot]
  · cases hsuccess : reply.isSuccess with
    | false => simp [h401]
    | true => simp [h401, eq_comm]

/-- The attempt takes one of the courses of the task in every world. -/
def Task.Takes (t : Task) (c : Client) (act : Attempt Client) : Prop :=
  ∀ w, ∃ log, (act.exec w).2.requests = w.requests ++ log ∧
    t.Course c w.clock (act.exec w).1 log

/-- A task that fails before its request. -/
lemma takes_fail (e : Error) : t.Takes c (Attempt.fail e) := fun _ =>
  ⟨[], (List.append_nil _).symm, .unsent e⟩

/-- A task that sends its request and then does what the reply settles. -/
lemma takes_fetch {r : Http.Request} {f : Http.Reply → Attempt Client}
    (hr : ∃ sizes, t.request? c sizes = some r)
    (hf : ∀ reply w, (f reply).exec w = (t.settled c w.clock reply, w)) :
    t.Takes c (fetch r >>= f) := by
  obtain ⟨sizes, hr⟩ := hr
  intro w
  rcases exec_fetch_cases r w with
    ⟨e, hrun⟩ | ⟨d, ⟨e, hrun, hrefused⟩ | ⟨reply, hrun, hreply, hcheck⟩⟩
  · rw [exec_bind_error hrun]
    exact ⟨[], (List.append_nil _).symm, .unsent e⟩
  · rw [exec_bind_error hrun]
    exact ⟨[(r, d)], rfl, .refused hr hrefused⟩
  · rw [exec_bind_ok hrun, hf]
    exact ⟨[(r, d)], rfl, .carriedOut hr hreply (check_eq_ok_iff.1 hcheck).1⟩

lemma takes_requireToken {f : String → Attempt Client}
    (hf : ∀ s, c.session = some s → t.Takes c (f s.accessToken)) :
    t.Takes c (c.requireToken >>= f) := by
  cases hs : c.session with
  | none =>
    have hfail : c.requireToken = Attempt.fail .notLoggedIn := by rw [requireToken, hs]
    rw [hfail]
    exact takes_fail .notLoggedIn
  | some s =>
    rw [requireToken_eq hs, pure_bind]
    exact hf s hs

lemma ofExcept_bind {α β : Type} (x : Except Error α) (f : α → Except Error β) :
    Attempt.ofExcept (x >>= f) = Attempt.ofExcept x >>= fun a => Attempt.ofExcept (f a) := by
  cases x with
  | error e => rfl
  | ok a => rfl

/-- Decoding a reply settles a task that needs nothing else of it. -/
lemma exec_decoded_bind {α : Type} (value : Json.Reader α) (reply : Http.Reply) (g : α → Client)
    (w : World) : (Attempt.ofExcept (decoded value reply) >>= fun a => pure (g a)).exec w =
      ((decoded value reply).map g, w) := by
  cases decoded value reply with
  | error e => rfl
  | ok a => rfl

lemma takes_login (name password : String) :
    (Task.login name password).Takes c ((Task.login name password).attempt c) := by
  simp only [Task.attempt, login, bind_assoc, pure_bind]
  refine takes_fetch ⟨[], rfl⟩ fun reply w => ?_
  rw [Task.settled]
  cases decoded Wire.readTokens reply with
  | error e => rfl
  | ok tokens => rfl

lemma takes_refresh : Task.refresh.Takes c (Task.refresh.attempt c) := by
  simp only [Task.attempt, refresh]
  cases hs : c.session with
  | none => exact takes_fail .notLoggedIn
  | some s =>
    refine takes_fetch ⟨[], by rw [Task.request?, hs]; rfl⟩ fun reply w => ?_
    rw [Task.settled, Task.readTokens?, content, hs]
    cases reply.body with
    | none => rfl
    | some body =>
      rw [exec_bind_ok (exec_ofExcept _ w)]
      dsimp only [Option.bind_some, Except.map]
      cases Json.decode Wire.readTokens (Utf8.sourceOfString (Utf8.lossy body)) with
      | error f => rfl
      | ok tokens => rfl

/-- The sizes of the files are looked at before the request, which sends nothing. -/
lemma takes_commit (p : Payload) : (Task.commit p).Takes c ((Task.commit p).attempt c) := by
  intro w
  have hquiet : Leaves (fun w' => w'.requests = w.requests ∧ w'.clock = w.clock)
      (measure p) :=
    (asks_measure (C := Call.IsQuiet) fun _ _ => trivial).leaves fun _ hcall w' hw' =>
      have hsame := w'.answer_of_isQuiet hcall
      ⟨hsame.1.trans hw'.1, hsame.2.1.trans hw'.2⟩
  obtain ⟨hrequests, hclock⟩ := hquiet w ⟨rfl, rfl⟩
  have hsizes := exec_outcome (measure p) w
  rw [Task.attempt, commit, bind_assoc, exec_bind_ok hsizes, ← hrequests, ← hclock]
  generalize ((measure p).exec w).2 = w'
  cases ((measure p).exec w).1 with
  | error e => exact takes_fail e w'
  | ok measured =>
    obtain ⟨total, sizes⟩ := measured
    cases hs : c.session with
    | none => exact takes_fail .notLoggedIn w'
    | some s =>
      have hfetch := takes_fetch (t := .commit p) (c := c)
        (f := fun reply => Attempt.ofExcept (decoded Wire.readCommitResponse reply) >>= fun _ =>
          pure c) ⟨sizes, by rw [Task.request?, hs]; rfl⟩ (fun reply w =>
          exec_decoded_bind Wire.readCommitResponse reply (fun _ => c) w) w'
      -- checking and decoding the reply in one step or in two makes no difference
      have hsteps : ∀ x : List Bytes × Except Error Http.Reply,
          (Attempt.ofExcept (x.2 >>= fun reply => check reply >>= decoded Wire.readCommitResponse)
            >>= fun _ => (pure c : Attempt Client)) = Attempt.ofExcept (x.2 >>= check) >>=
          fun reply =>
            Attempt.ofExcept (decoded Wire.readCommitResponse reply) >>= fun _ => pure c :=
        fun x => by rw [← bind_assoc x.2, ofExcept_bind, bind_assoc]
      simp only [fetch, bind_assoc] at hfetch
      simp only [bind_assoc, pure_bind, hsteps]
      exact hfetch

/-- Whatever is asked for takes one of its courses. -/
theorem takes_attempt (c : Client) (t : Task) : t.Takes c (t.attempt c) := by
  cases t with
  | login name password => exact takes_login name password
  | logout =>
    refine takes_requireToken fun s hs => ?_
    exact takes_fetch ⟨[], by rw [Task.request?, hs]; rfl⟩ fun reply w => rfl
  | refresh => exact takes_refresh
  | sections =>
    simp only [Task.attempt, sections, bind_assoc]
    refine takes_requireToken fun s hs => ?_
    exact takes_fetch ⟨[], by rw [Task.request?, hs]; rfl⟩ fun reply w =>
      exec_decoded_bind _ reply (fun _ => c) w
  | sync =>
    simp only [Task.attempt, sync, bind_assoc, pure_bind]
    refine takes_requireToken fun s hs => ?_
    exact takes_fetch ⟨[], by rw [Task.request?, hs]; rfl⟩ fun reply w => rfl
  | snap what =>
    simp only [Task.attempt, snap, bind_assoc, pure_bind]
    refine takes_requireToken fun s hs => ?_
    exact takes_fetch ⟨[], by rw [Task.request?, hs]; rfl⟩ fun reply w => rfl
  | commit p => exact takes_commit p

/-! ### What follows from the course -/

/-- A reply to anything but a login, a logout or a refresh leaves the client as it was. -/
lemma Task.eq_of_settled {reply : Http.Reply} (hlogin : ∀ name password, t ≠ .login name password)
    (hlogout : t ≠ .logout) (hrefresh : t ≠ .refresh) (h : t.settled c now reply = .ok d) :
    d = c := by
  have hread : ∀ {α : Type} (r : Except Error α), r.map (fun _ => c) = .ok d → d = c := by
    intro α r hr
    cases r with
    | error e => cases hr
    | ok a => exact (Except.ok.inj hr).symm
  cases t with
  | login name password => exact absurd rfl (hlogin name password)
  | logout => exact absurd rfl hlogout
  | refresh => exact absurd rfl hrefresh
  | sections | commit p => exact hread _ h
  | sync | snap what => exact (Except.ok.inj h).symm

namespace Task.Course

lemma length_le (h : t.Course c now outcome log) : log.length ≤ 1 := by
  cases h with
  | unsent e => exact Nat.zero_le 1
  | refused hr hreply => exact Nat.le_refl 1
  | carriedOut hr hreply hsuccess => exact Nat.le_refl 1

/-- What is sent is the request of the task. -/
lemma request (h : t.Course c now outcome log) {e : Exchange} (he : e ∈ log) :
    ∃ sizes, t.request? c sizes = some e.1 := by
  cases h with
  | unsent e => exact absurd he List.not_mem_nil
  | refused hr hreply =>
    rw [List.mem_singleton.1 he]
    exact ⟨_, hr⟩
  | carriedOut hr hreply hsuccess =>
    rw [List.mem_singleton.1 he]
    exact ⟨_, hr⟩

/-- A task without request fails. -/
lemma of_request_none (h : t.Course c now outcome log)
    (hnone : ∀ sizes, t.request? c sizes = none) :
    (∃ e, outcome = .error e) ∧ log = [] := by
  cases h with
  | unsent e => exact ⟨⟨e, rfl⟩, rfl⟩
  | refused hr hreply => exact nomatch (hnone _).symm.trans hr
  | carriedOut hr hreply hsuccess => exact nomatch (hnone _).symm.trans hr

/-- A reply that says that the request was carried out settles the task. -/
lemma of_success (h : t.Course c now outcome log) {e : Exchange} {reply : Http.Reply}
    (he : e ∈ log) (hreply : e.2.reply? = some reply) (hsuccess : reply.isSuccess = true) :
    outcome = t.settled c now reply := by
  cases h with
  | unsent e => exact absurd he List.not_mem_nil
  | refused hr hrefused =>
    rw [List.mem_singleton.1 he] at hreply
    exact nomatch (check_eq_ok_iff.2 ⟨hsuccess, rfl⟩).symm.trans (hrefused reply hreply)
  | carriedOut hr hreply' hsuccess' =>
    rw [List.mem_singleton.1 he] at hreply
    rw [Option.some.inj (hreply.symm.trans hreply')]

/-- A task succeeds only by a reply that says that the request was carried out. -/
lemma of_ok (h : t.Course c now outcome log) (hok : outcome = .ok d) :
    ∃ e reply, log = [e] ∧ e.2.reply? = some reply ∧ reply.isSuccess = true ∧
      t.settled c now reply = .ok d := by
  cases h with
  | unsent e => exact nomatch hok
  | refused hr hreply => exact nomatch hok
  | carriedOut hr hreply hsuccess => exact ⟨_, _, rfl, hreply, hsuccess, hok⟩

lemma of_unauthorized (h : t.Course c now outcome log) {e : Exchange} {reply : Http.Reply}
    (he : e ∈ log) (hreply : e.2.reply? = some reply) (h401 : reply.status = 401) :
    outcome = .error .unauthorized := by
  cases h with
  | unsent e => exact absurd he List.not_mem_nil
  | refused hr hrefused =>
    rw [List.mem_singleton.1 he] at hreply
    have hcheck := hrefused reply hreply
    rw [check, if_pos h401] at hcheck
    rw [Except.error.inj hcheck]
  | carriedOut hr hreply' hsuccess =>
    rw [List.mem_singleton.1 he] at hreply
    rw [← Option.some.inj (hreply.symm.trans hreply'), Http.Reply.isSuccess, h401] at hsuccess
    exact absurd hsuccess (by decide)

end Task.Course

/-! ### Turns -/

/-- A task, and the world in which it is done. -/
structure Turn where
  task : Task
  world : World

namespace Turn

/-- What the client has become, unless the task has failed. -/
def result (c : Client) (turn : Turn) : Except Error Client :=
  ((turn.task.attempt c).exec turn.world).1

/-- The requests that were sent in this turn, and what became of them. -/
def exchanges (c : Client) (turn : Turn) : List Exchange :=
  ((turn.task.attempt c).exec turn.world).2.requests.drop turn.world.requests.length

/-- The client after the turn; if the task has failed, it is as it was. -/
def after (c : Client) (turn : Turn) : Client :=
  match turn.result c with
  | .ok d => d
  | .error _ => c

/-- The tokens that a reply to the turn hands out: it says that the request was carried out, and its
body holds tokens. -/
def granted? (c : Client) (turn : Turn) : Option Tokens := do
  let e ← (turn.exchanges c).head?
  let reply ← e.2.reply?
  guard reply.isSuccess
  turn.task.readTokens? reply

/-- The tokens that were handed out since the session was opened, given those before the turn. -/
def received (c : Client) (tokens : List Tokens) (turn : Turn) : List Tokens :=
  match turn.task, turn.granted? c with
  | .login _ _, some new => [new]
  | _, new => tokens ++ new.toList

/-- What becomes of the session in a turn that succeeds. -/
inductive Changes (c : Client) (turn : Turn) : Option Session → Prop
  /-- A login opens a session with the tokens in the reply. -/
  | opened {name password : String} {new : Tokens} (htask : turn.task = .login name password)
      (hnew : turn.granted? c = some new) :
      Changes c turn (some ⟨name, new.accessToken, new.refreshToken, turn.world.clock⟩)
  /-- A logout closes it. -/
  | closed (htask : turn.task = .logout) : Changes c turn none
  /-- A refresh takes over the tokens in the reply. -/
  | renewed {s : Session} {new : Tokens} (htask : turn.task = .refresh)
      (hs : c.session = some s) (hnew : turn.granted? c = some new) :
      Changes c turn (some
        ⟨s.user, new.accessToken, new.refreshToken.or s.refreshToken, turn.world.clock⟩)
  /-- Nothing else changes it, nor does a refresh without tokens in the reply. -/
  | kept (hlogin : ∀ name password, turn.task ≠ .login name password)
      (hlogout : turn.task ≠ .logout) (hnone : turn.granted? c = none) :
      Changes c turn c.session

/-- The rules for a turn of the client `c`, to which `tokens` were handed out since its session was
opened. -/
structure Lawful (c : Client) (tokens : List Tokens) (turn : Turn) : Prop where
  /-- One request is sent, or none. -/
  single : (turn.exchanges c).length ≤ 1
  /-- A task that fails leaves the session as it was. -/
  failed : ∀ e, turn.result c = .error e → (turn.after c).session = c.session
  /-- A task succeeds only by a reply that says that its request was carried out. -/
  succeeded : ∀ d, turn.result c = .ok d → ∃ e reply, turn.exchanges c = [e] ∧
    e.2.reply? = some reply ∧ reply.isSuccess = true
  changes : ∀ d, turn.result c = .ok d → turn.Changes c (turn.after c).session
  /-- A refresh that is carried out succeeds, whatever the body of the reply is; it only has to have
  an end. -/
  refreshed : turn.task = .refresh → ∀ e ∈ turn.exchanges c, ∀ reply, e.2.reply? = some reply →
    reply.isSuccess = true → ((∃ d, turn.result c = .ok d) ↔ reply.body.isSome)
  /-- A refresh presents the refresh token that was handed out last, or the access token if there
  was none. -/
  presentsRefresh : turn.task = .refresh → ∀ e ∈ turn.exchanges c, ∃ s, c.session = some s ∧
    e.1.token = some ((tokens.filterMap Tokens.refreshToken).getLast?.getD s.accessToken)
  /-- A login presents nothing. -/
  presentsNothing : ∀ name password, turn.task = .login name password →
    ∀ e ∈ turn.exchanges c, e.1.token = none
  /-- Everything else presents the access token. -/
  presentsAccess : turn.task ≠ .refresh → (∀ name password, turn.task ≠ .login name password) →
    ∀ e ∈ turn.exchanges c, ∃ s, c.session = some s ∧ e.1.token = some s.accessToken
  /-- The access token is the one that was handed out last. -/
  accessToken : ∀ s, c.session = some s →
    (tokens.map Tokens.accessToken).getLast? = some s.accessToken
  /-- Without a session everything but a login fails, and nothing is sent. -/
  closed : c.session = none → (∀ name password, turn.task ≠ .login name password) →
    (∃ e, turn.result c = .error e) ∧ turn.exchanges c = []
  /-- A reply with the status 401 has an error of its own. -/
  unauthorized : ∀ e ∈ turn.exchanges c, ∀ reply, e.2.reply? = some reply → reply.status = 401 →
    turn.result c = .error .unauthorized
  server : (turn.after c).server = c.server

/-- The session of the client has what was handed out last since it was opened. -/
structure Current (c : Client) (tokens : List Tokens) : Prop where
  access : ∀ s, c.session = some s →
    (tokens.map Tokens.accessToken).getLast? = some s.accessToken
  refresh : ∀ s, c.session = some s →
    s.refreshToken = (tokens.filterMap Tokens.refreshToken).getLast?

/-! ### One turn -/

variable {turn : Turn}

lemma course (c : Client) (turn : Turn) :
    turn.task.Course c turn.world.clock (turn.result c) (turn.exchanges c) := by
  obtain ⟨log, hlog, hcourse⟩ := takes_attempt c turn.task turn.world
  have hexchanges : turn.exchanges c = log := by rw [exchanges, hlog, List.drop_left]
  rwa [← hexchanges] at hcourse

lemma after_of_ok (h : turn.result c = .ok d) : turn.after c = d := by rw [after, h]

lemma after_of_error {e : Error} (h : turn.result c = .error e) : turn.after c = c := by
  rw [after, h]

/-- What is granted is in the reply that settles the task. -/
lemma granted?_of_success {e : Exchange} {reply : Http.Reply} (he : turn.exchanges c = [e])
    (hreply : e.2.reply? = some reply) (hsuccess : reply.isSuccess = true) :
    turn.granted? c = turn.task.readTokens? reply := by
  simp [granted?, he, hreply, hsuccess, guard]

lemma exists_of_granted? {new : Tokens} (h : turn.granted? c = some new) :
    ∃ e reply, e ∈ turn.exchanges c ∧ e.2.reply? = some reply ∧ reply.isSuccess = true ∧
      turn.task.readTokens? reply = some new := by
  obtain ⟨e, he, hrest⟩ := Option.bind_eq_some_iff.1 h
  obtain ⟨reply, hreply, hrest⟩ := Option.bind_eq_some_iff.1 hrest
  obtain ⟨⟨⟩, hsuccess, hread⟩ := Option.bind_eq_some_iff.1 hrest
  exact ⟨e, reply, List.mem_of_mem_head? he, hreply, (Option.guard_eq_some' ()).1 hsuccess, hread⟩

/-- A task that fails is granted nothing. -/
lemma granted?_of_error {e : Error} (h : turn.result c = .error e) : turn.granted? c = none := by
  by_contra hsome
  obtain ⟨new, hnew⟩ := Option.ne_none_iff_exists'.1 hsome
  obtain ⟨x, reply, hx, hreply, hsuccess, hread⟩ := exists_of_granted? hnew
  have hsettled := h.symm.trans ((course c turn).of_success hx hreply hsuccess)
  cases htask : turn.task with
  | login name password =>
    rw [htask] at hread hsettled
    rw [Task.readTokens?] at hread
    rw [Task.settled] at hsettled
    cases hdecoded : decoded Wire.readTokens reply with
    | error f =>
      rw [hdecoded] at hread
      cases hread
    | ok tokens =>
      rw [hdecoded] at hsettled
      cases hsettled
  | refresh =>
    rw [htask] at hread hsettled
    rw [Task.readTokens?] at hread
    rw [Task.settled, content] at hsettled
    cases hbody : reply.body with
    | none =>
      rw [hbody] at hread
      cases hread
    | some body =>
      rw [hbody] at hsettled
      cases hsettled
  | _ =>
    rw [htask] at hread
    cases hread

/-- A task that succeeds changes the session in one of these ways, and nothing else. -/
lemma changes_of_ok (h : turn.result c = .ok d) :
    turn.Changes c d.session ∧ d.server = c.server := by
  obtain ⟨e, reply, he, hreply, hsuccess, hsettled⟩ := (course c turn).of_ok h
  have hgranted := granted?_of_success he hreply hsuccess
  obtain ⟨sizes, hrequest⟩ := (course c turn).request (e := e) (by rw [he]; exact .head _)
  cases htask : turn.task with
  | login name password =>
    rw [htask] at hgranted hsettled
    rw [Task.readTokens?] at hgranted
    rw [Task.settled] at hsettled
    cases hdecoded : decoded Wire.readTokens reply with
    | error f => exact nomatch hdecoded ▸ hsettled
    | ok new =>
      rw [hdecoded] at hgranted hsettled
      obtain rfl := Except.ok.inj hsettled
      exact ⟨.opened htask hgranted, rfl⟩
  | logout =>
    rw [htask] at hsettled
    obtain rfl := Except.ok.inj hsettled
    exact ⟨.closed htask, rfl⟩
  | refresh =>
    rw [htask] at hgranted hsettled hrequest
    obtain ⟨s, hs, -⟩ := Option.map_eq_some_iff.1 hrequest
    rw [Task.settled] at hsettled
    cases hcontent : content reply with
    | error f =>
      rw [hcontent] at hsettled
      cases hsettled
    | ok body =>
      rw [hcontent] at hsettled
      obtain rfl := Except.ok.inj hsettled
      rw [← hgranted, hs]
      cases hnew : turn.granted? c with
      | none => exact ⟨.kept (by simp [htask]) (by simp [htask]) hnew, rfl⟩
      | some new => exact ⟨.renewed htask hs hnew, rfl⟩
  | sections | sync | snap what | commit p =>
    rw [htask] at hgranted hsettled
    obtain rfl := Task.eq_of_settled (by simp) (by simp) (by simp) hsettled
    exact ⟨.kept (by simp [htask]) (by simp [htask]) hgranted, rfl⟩

lemma received_of_none (h : turn.granted? c = none) : turn.received c tokens = tokens := by
  rw [received, h]
  cases turn.task with
  | _ => exact List.append_nil tokens

/-- Every turn leaves the session with what was handed out last. -/
lemma Current.step (h : Current c tokens) (turn : Turn) :
    Current (turn.after c) (turn.received c tokens) := by
  cases hresult : turn.result c with
  | error e =>
    rw [after_of_error hresult, received_of_none (granted?_of_error hresult)]
    exact h
  | ok d =>
    rw [after_of_ok hresult]
    obtain ⟨hchanges, -⟩ := changes_of_ok hresult
    generalize hsession : d.session = session at hchanges
    cases hchanges with
    | @opened name password new htask hnew =>
      have htokens : turn.received c tokens = [new] := by rw [received, htask, hnew]
      rw [htokens]
      refine ⟨fun s hs => ?_, fun s hs => ?_⟩
      · obtain rfl := Option.some.inj (hsession.symm.trans hs)
        rfl
      · obtain rfl := Option.some.inj (hsession.symm.trans hs)
        cases hrefresh : new.refreshToken with
        | none => simp [hrefresh]
        | some x => simp [hrefresh]
    | closed htask =>
      exact ⟨fun s hs => (nomatch hsession.symm.trans hs),
        fun s hs => (nomatch hsession.symm.trans hs)⟩
    | @renewed s₀ new htask hs₀ hnew =>
      have htokens : turn.received c tokens = tokens ++ [new] := by
        rw [received, htask, hnew]
        rfl
      rw [htokens]
      refine ⟨fun s hs => ?_, fun s hs => ?_⟩
      · obtain rfl := Option.some.inj (hsession.symm.trans hs)
        simp
      · obtain rfl := Option.some.inj (hsession.symm.trans hs)
        have hlast := h.refresh s₀ hs₀
        cases hrefresh : new.refreshToken with
        | none => simp [hrefresh, hlast]
        | some x => simp [hrefresh]
    | kept hlogin hlogout hnone =>
      rw [received_of_none hnone]
      exact ⟨fun s hs => h.access s (hsession.symm.trans hs),
        fun s hs => h.refresh s (hsession.symm.trans hs)⟩

/-- A client whose session has what was handed out last keeps the rules. -/
lemma lawful (h : Current c tokens) (turn : Turn) : turn.Lawful c tokens where
  single := (course c turn).length_le
  failed e he := by rw [after_of_error he]
  succeeded d hd := by
    obtain ⟨e, reply, he, hreply, hsuccess, -⟩ := (course c turn).of_ok hd
    exact ⟨e, reply, he, hreply, hsuccess⟩
  changes d hd := by
    rw [after_of_ok hd]
    exact (changes_of_ok hd).1
  refreshed htask e he reply hreply hsuccess := by
    have hsettled := (course c turn).of_success he hreply hsuccess
    rw [htask, Task.settled, content] at hsettled
    rw [hsettled]
    cases reply.body with
    | some body => exact ⟨fun _ => rfl, fun _ => ⟨_, rfl⟩⟩
    | none =>
      refine ⟨fun hok => ?_, fun h => Bool.noConfusion h⟩
      obtain ⟨d, hd⟩ := hok
      cases hd
  presentsRefresh htask e he := by
    obtain ⟨sizes, hrequest⟩ := (course c turn).request he
    rw [htask] at hrequest
    obtain ⟨s, hs, hr⟩ := Option.map_eq_some_iff.1 hrequest
    refine ⟨s, hs, ?_⟩
    rw [← hr, ← h.refresh s hs]
    rfl
  presentsNothing name password htask e he := by
    obtain ⟨sizes, hrequest⟩ := (course c turn).request he
    rw [htask] at hrequest
    rw [← Option.some.inj hrequest]
    rfl
  presentsAccess hrefresh hlogin e he := by
    obtain ⟨sizes, hrequest⟩ := (course c turn).request he
    cases htask : turn.task with
    | login name password => exact absurd htask (hlogin name password)
    | refresh => exact absurd htask hrefresh
    | _ =>
      rw [htask] at hrequest
      obtain ⟨s, hs, hr⟩ := Option.map_eq_some_iff.1 hrequest
      exact ⟨s, hs, by rw [← hr]; rfl⟩
  accessToken := h.access
  closed hnone hlogin := by
    refine (course c turn).of_request_none fun sizes => ?_
    cases htask : turn.task with
    | login name password => exact absurd htask (hlogin name password)
    | _ => simp [Task.request?, hnone]
  unauthorized e he reply hreply h401 := (course c turn).of_unauthorized he hreply h401
  server := by
    cases hresult : turn.result c with
    | error e => rw [after_of_error hresult]
    | ok d =>
      rw [after_of_ok hresult]
      exact (changes_of_ok hresult).2

end Turn

/-! ### One turn after another -/

/-- The tokens that the client has from the start. -/
def ownTokens (c : Client) : List Tokens :=
  c.session.toList.map fun s => ⟨s.accessToken, s.refreshToken, none⟩

/-- The client after these turns, and the tokens that were handed out since its session was
opened. -/
def history (c : Client) (turns : List Turn) : Client × List Tokens :=
  turns.foldl (fun h turn => (turn.after h.1, turn.received h.1 h.2)) (c, c.ownTokens)

/-- What holds at first, and is kept by every turn, holds after any history. -/
lemma history_induction {P : Client → List Tokens → Prop} (hfirst : P c c.ownTokens)
    (hturn : ∀ c tokens (turn : Turn), P c tokens → P (turn.after c) (turn.received c tokens))
    (turns : List Turn) : P (c.history turns).1 (c.history turns).2 := by
  have hrun : ∀ (turns : List Turn) (h : Client × List Tokens), P h.1 h.2 →
      P (turns.foldl (fun h turn => (turn.after h.1, turn.received h.1 h.2)) h).1
        (turns.foldl (fun h turn => (turn.after h.1, turn.received h.1 h.2)) h).2 := by
    intro turns
    induction turns with
    | nil => exact fun h hp => hp
    | cons turn turns ih => exact fun h hp => ih _ (hturn h.1 h.2 turn hp)
  exact hrun turns _ hfirst

lemma current_own (c : Client) : Turn.Current c c.ownTokens where
  access s hs := by simp [ownTokens, hs]
  refresh s hs := by cases hrefresh : s.refreshToken <;> simp [ownTokens, hs, hrefresh]

/-- Whatever was done before and whatever was answered, the session has what was handed out last
since it was opened. -/
lemma current_history (c : Client) (turns : List Turn) :
    Turn.Current (c.history turns).1 (c.history turns).2 :=
  history_induction (current_own c) (fun _ _ turn hcurrent => hcurrent.step turn) turns

/-- Whatever a client was asked for before, and whatever was answered, its next turn keeps the
rules for sessions. -/
theorem lawful_history (c : Client) (turns : List Turn) (turn : Turn) :
    turn.Lawful (c.history turns).1 (c.history turns).2 :=
  Turn.lawful (current_history c turns) turn

end PackageStaging.Client
