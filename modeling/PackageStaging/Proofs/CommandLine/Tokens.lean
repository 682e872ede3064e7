/-
# Tokens from one command to the next

A command that uses the stored session leaves a session that is up to date: one that does not renew
it stores it again at most, and a push stores the renewed one however it ends.  So over any run of
commands every request presents the token that was handed out last (`tokens_presented`).
-/
import PackageStaging.Proofs.CommandLine.LastWins
import PackageStaging.Proofs.Session.Renewal
import PackageStaging.Proofs.Wire.Sessions

namespace PackageStaging

open Attempt

namespace StateDirectory

/-- A session is stored in the state directory, and there is room for the draft of another one. -/
def Stores (root : Path) (t : Session) (w : World) : Prop :=
  ∃ dir bytes, Keeping root dir sessionName (some bytes) w ∧
    Json.decode Wire.readSession (Utf8.source bytes) = .ok t

variable {root : Path} {dir : Route} {t : Session} {w : World} {content : Option Bytes}

lemma ofFiles_stores : OfFiles (Stores root t) := by
  rintro w w' hfiles hhere ⟨dir, bytes, hkeeping, ht⟩
  exact ⟨dir, bytes, ofFiles_keeping w w' hfiles hhere hkeeping, ht⟩

/-- The calls that touch neither the server nor the session. -/
def IsLocal (root : Path) (c : Call) : Prop := c.KeepsTo root (namesOf stagedName) ∧ c.IsQuiet

lemma leaves_stores {α : Type} {act : Attempt α} (hact : act.Asks (IsLocal root)) :
    Leaves (Stores root t) act := by
  rintro w ⟨dir, bytes, hkeeping, ht⟩
  refine ⟨dir, bytes, leaves_keeping (hact.imp fun _ hc => hc.1) (namesOf_subset staged_kept)
    (not_mem_namesOf session_kept staged_kept (by decide)) w hkeeping, ht⟩

lemma isLocal_of_isOfArea (c : Call) (hc : IsOfArea root c) : IsLocal root c := by
  cases c with
  | readFile | print => exact ⟨trivial, trivial⟩
  | writeFile | replaceFile | removeFile => exact ⟨hc, trivial⟩
  | _ => exact hc.elim

/-- The session that is stored is loaded. -/
lemma exec_loadSession (h : Stores root t w) : (loadSession ⟨root⟩).exec w = (.ok (some t), w) := by
  obtain ⟨dir, bytes, hkeeping, ht⟩ := h
  rw [loadSession, exec_load hkeeping.enters (namesOf_subset session_kept sessionName (.head _)),
    hkeeping.file, Option.map_some, readAt, ht]
  rfl

/-- A session whose time is supported is stored from then on. -/
lemma exec_saveSession (h : Keeping root dir sessionName content w)
    (ht : t.issuedAt.Supported) :
    ∃ w', (saveSession ⟨root⟩ t).exec w = (.ok (), w') ∧ Stores root t w' := by
  obtain ⟨w', hrun, hkeeping⟩ := exec_save h session_kept (Wire.sessionValue t)
  exact ⟨w', hrun, dir, _, hkeeping, Wire.decode_session ht⟩

end StateDirectory

namespace CommandLine

open StateDirectory

variable {root : Path} {past : List Exchange} {s t : Session} {w : World} {config : Config}

/-- The session that is stored is up to date. -/
def Settled (root : Path) (past : List Exchange) (s t : Session) (w : World) : Prop :=
  Stores root t w ∧ UpToDate past s t w

lemma leaves_settled {α : Type} {act : Attempt α} (hact : act.Asks (IsLocal root)) :
    Leaves (Settled root past s t) act :=
  (leaves_stores hact).and (leaves_upToDate (hact.imp fun _ hc => hc.2))

lemma asks_say (line : String) : (say line).Asks (IsLocal root) :=
  asks_ask ⟨trivial, trivial⟩

lemma asks_complain (line : String) : (complain line).Asks (IsLocal root) :=
  asks_ask ⟨trivial, trivial⟩

/-! ### Connections -/

/-- The state directory is there already. -/
lemma leaves_openState {α : Type} {g : StateDirectory → Attempt α}
    (hroot : config.stateDirectory = root) (hg : Leaves (Settled root past s t) (g ⟨root⟩)) :
    Leaves (Settled root past s t) (openState config >>= g) := by
  intro w hw
  obtain ⟨dir, bytes, hkeeping, -⟩ := hw.1
  rw [openState, hroot, exec_bind_ok (opened_of_enters hkeeping.enters)]
  exact hg w hw

/-- The stored session is used. -/
lemma exec_opened_connection (h : Stores root t w) (hup : UpToDate past s t w) :
    (Connection.opened config ⟨root⟩).exec w = (.ok ⟨⟨config.serverUrl, some t⟩, .stored⟩, w) := by
  have hstored : (authenticate.stored ⟨root⟩).exec w = (.ok (.stored, t), w) := by
    rw [authenticate.stored, exec_bind_ok (exec_loadSession h)]
    rfl
  have hanswer : w.answer (.environment tokenVariable) =
      (w.environment.get? tokenVariable, w) := rfl
  have hauth : (authenticate ⟨root⟩).exec w = (.ok (.stored, t), w) := by
    rw [authenticate, exec_ask_bind, hanswer]
    cases hget : w.environment.get? tokenVariable with
    | none => exact hstored
    | some x =>
      -- a blank token does not count
      simp only [Option.map_some, hup.unset x hget, ne_eq, not_true_eq_false, if_false]
      exact hstored
  rw [Connection.opened, exec_bind_ok hauth]
  rfl

/-- A session that is up to date is stored, whatever was stored before. -/
lemma exec_keepSession {t₀ : Session} (h : Stores root t₀ w) (hup : UpToDate past s t w)
    (server : Url) :
    ∃ w', ((⟨⟨server, some t⟩, .stored⟩ : Connection).keepSession ⟨root⟩).exec w = (.ok (), w') ∧
      Settled root past s t w' := by
  obtain ⟨dir, bytes, hkeeping, -⟩ := h
  obtain ⟨w', hrun, hstores⟩ := exec_saveSession hkeeping hup.issued
  have hquiet : Leaves (UpToDate past s t) (saveSession ⟨root⟩ t) :=
    leaves_upToDate (asks_save (fun _ => trivial) trivial _)
  have hafter := hquiet w hup
  rw [hrun] at hafter
  exact ⟨w', hrun, hstores, hafter⟩

lemma leaves_keepSession (server : Url) :
    Leaves (Settled root past s t)
      ((⟨⟨server, some t⟩, .stored⟩ : Connection).keepSession ⟨root⟩) := by
  intro w hw
  obtain ⟨w', hrun, hafter⟩ := exec_keepSession hw.1 hw.2 server
  rw [hrun]
  exact hafter

/-- Asking the server over a connection. -/
lemma settled_connection {α : Type} (ask : Connection → Attempt α) {report : α → Attempt Unit}
    (hroot : config.stateDirectory = root)
    (hfiles : ∀ P, OfFiles P → ∀ c, Leaves P (ask c))
    (hask : Leaves (UpToDate past s t) (ask ⟨⟨config.serverUrl, some t⟩, .stored⟩))
    (hreport : ∀ x, (report x).Asks (IsLocal root)) :
    Leaves (Settled root past s t) (do
      let d ← openState config
      let connection ← Connection.opened config d
      let x ← ask connection
      connection.keepSession d
      report x) := by
  refine leaves_openState hroot fun w hw => ?_
  rw [exec_bind_ok (exec_opened_connection hw.1 hw.2)]
  refine Leaves.bind (P := Settled root past s t) ((hfiles _ ofFiles_stores _).and hask)
    (fun x => ?_) w hw
  exact (leaves_keepSession _).bind fun _ => leaves_settled (hreport x)

/-- The sections are checked with the stored session. -/
lemma settled_checkSections (hbase : config.serverUrl.isBase = true)
    (sections : List SectionAddress) :
    Leaves (Settled root past s t) (checkSections config ⟨root⟩ sections) := by
  intro w hw
  have hopened : (Connection.opened config ⟨root⟩).exec w = _ := exec_opened_connection hw.1 hw.2
  rw [checkSections, exec_bind_ok (exec_outcome _ w), hopened]
  refine Leaves.bind (P := Settled root past s t)
    ((Client.leaves_sections ofFiles_stores _).and (Client.upToDate_sections rfl hbase))
    (fun listing => ?_) w hw
  exact (leaves_keepSession _).bind fun _ => leaves_ofExcept _

/-! ### Pushes -/

/-- The emptied staging area is saved if the file of the old one was no directory. -/
lemma exec_saveArea_empty {dir : Route} (h : w.files.Enters w.here root dir)
    (hnode : w.files.node? (place dir stagedName) ≠ some .directory) :
    ∃ w', (saveArea ⟨root⟩ .empty).exec w = (.ok (), w') := by
  obtain ⟨w', hrun, -⟩ := exec_discard h staged_mem hnode
  exact ⟨w', hrun⟩

/-- The renewed session is stored after a push, whether the push went well or not. -/
lemma settled_pushEnd {t₀ : Session} {dir : Route} {server : Url} {push : Push}
    (hstores : Stores root t₀ w) (hup : UpToDate past s t w) (hbase : server.isBase = true)
    (henters : w.files.Enters w.here root dir)
    (hnode : w.files.node? (place dir stagedName) ≠ some .directory)
    (hover : ∃ r, push.result? = some r ∧ ∀ o, r = .ok o → push.area = .empty) :
    Settled root past s t ((match push.result? with
      | some (.ok outcome) => do
        saveArea ⟨root⟩ push.area
        let _ ← Attempt.outcome ((⟨⟨server, some t⟩, .stored⟩ : Connection).keepSession ⟨root⟩)
        say (doneLine (pushedText outcome))
        if outcome.reloadSections then
          let _ ← Attempt.outcome (⟨server, some t⟩ : Client).sections
      | some (.error e) => do
        let _ ← Attempt.outcome ((⟨⟨server, some t⟩, .stored⟩ : Connection).keepSession ⟨root⟩)
        (adviceOn e).toList.forM complain
        Attempt.fail e
      | none => pure () : Attempt Unit).exec w).2 := by
  obtain ⟨r, hr, hempty⟩ := hover
  rw [hr]
  cases r with
  | error e =>
    obtain ⟨w₁, hkeep, hsettled⟩ := exec_keepSession hstores hup server
    simp only
    rw [exec_bind_ok (exec_outcome _ w), hkeep]
    exact (leaves_settled (asks_forM fun line _ => asks_complain line)).bind
      (fun _ => leaves_fail e) w₁ hsettled
  | ok outcome =>
    obtain ⟨w₁, hsave⟩ := exec_saveArea_empty henters hnode
    have hasks : (saveArea ⟨root⟩ .empty).Asks (IsLocal root) :=
      asks_saveArea isLocal_of_isOfArea .empty
    have hafter : Leaves (fun w => Stores root t₀ w ∧ UpToDate past s t w)
        (saveArea ⟨root⟩ .empty) :=
      (leaves_stores hasks).and (leaves_upToDate (hasks.imp fun _ hc => hc.2))
    have hlocal := hafter w ⟨hstores, hup⟩
    rw [hsave] at hlocal
    obtain ⟨w₂, hkeep, hsettled⟩ := exec_keepSession hlocal.1 hlocal.2 server
    simp only
    rw [hempty outcome rfl, exec_bind_ok hsave, exec_bind_ok (exec_outcome _ w₁), hkeep]
    refine (leaves_settled (asks_say _)).bind (fun _ => ?_) w₂ hsettled
    split_ifs
    · exact ((Client.leaves_sections ofFiles_stores _).and
        (Client.upToDate_sections rfl hbase)).outcome.bind fun _ => leaves_pure ()
    · exact leaves_pure ()

/-- A push leaves a session that is up to date, whichever way it ends. -/
lemma settled_runPush (hroot : config.stateDirectory = root)
    (hbase : config.serverUrl.isBase = true) :
    Leaves (fun w => ∃ t, Settled root past s t w) (runPush config) := by
  rintro w ⟨t, hw⟩
  obtain ⟨dir, bytes, hkeeping, ht⟩ := id hw.1
  rw [runPush, openState, hroot, exec_bind_ok (opened_of_enters hkeeping.enters)]
  have hload := exec_loadArea_of_enters hkeeping.enters
  cases hread : readAt Wire.decodeStagingArea (w.files.node? (place dir stagedName)) with
  | error e =>
    rw [hread] at hload
    rw [exec_bind_error hload]
    exact ⟨t, hw⟩
  | ok o =>
    rw [hread] at hload
    have hnode := not_directory_of_readAt hread
    rw [exec_bind_ok hload]
    by_cases hempty : (o.getD StagingArea.empty).isEmpty = true
    · rw [if_pos hempty]
      exact ⟨t, leaves_settled (asks_say _) w hw⟩
    · rw [if_neg hempty, exec_bind_ok (exec_opened_connection hw.1 hw.2)]
      -- the push changes no file, and gives a client that is up to date
      obtain ⟨⟨client, push⟩, w₁, hrun⟩ :=
        Push.succeeds_run succeeds_showEvent ⟨config.serverUrl, some t⟩ (o.getD .empty) w
      obtain ⟨t', hsession, hserver, hup⟩ := ((Push.leads_run
        (asks_showEvent fun _ _ => trivial) succeeds_showEvent rfl
        hbase _ w hw.2).1 _ _ hrun : Client.IsUpToDate past s config.serverUrl client w₁)
      have hfiles : ∀ P, OfFiles P → P w → P w₁ := by
        intro P hP hPw
        have hafter := Push.leaves_run hP (asks_showEvent fun _ _ => rfl) ⟨config.serverUrl, some t⟩
          (o.getD .empty) w hPw
        rwa [hrun] at hafter
      obtain ⟨r, hr, hgood⟩ := Push.ends_run showEvent _ _ _ _ _ hrun
      have hplace := hfiles _ (ofFiles_tree fun files here => files.Enters here root dir ∧
        files.node? (place dir stagedName) ≠ some .directory) ⟨hkeeping.enters, hnode⟩
      obtain ⟨server, session⟩ := client
      subst hserver hsession
      rw [exec_bind_ok hrun]
      exact ⟨t', settled_pushEnd (hfiles _ ofFiles_stores hw.1) hup hbase hplace.1 hplace.2
        ⟨r, hr, fun o ho => (hgood o ho).1⟩⟩

/-! ### All commands -/

/-- The commands that use the stored session and neither open nor close one. -/
def Command.IsWithSession : Command → Bool
  | .login _ | .logout => false
  | _ => true

/-- A batch is staged after the sections have been checked. -/
lemma settled_staging (hroot : config.stateDirectory = root)
    (hbase : config.serverUrl.isBase = true) (sections : List SectionAddress)
    {rest : StateDirectory → Attempt Unit} (hrest : (rest ⟨root⟩).Asks (IsLocal root)) :
    Leaves (Settled root past s t) (do
      let d ← openState config
      checkSections config d sections
      rest d) :=
  leaves_openState hroot ((settled_checkSections hbase sections).bind fun _ => leaves_settled hrest)

lemma settled_runTransfer (hroot : config.stateDirectory = root)
    (hbase : config.serverUrl.isBase = true) (origin target : String)
    (batch : SectionAddress → Batch) :
    Leaves (Settled root past s t) (runTransfer config origin target batch) := by
  refine (leaves_ofExcept _).bind fun s => (leaves_ofExcept _).bind fun t => ?_
  exact settled_staging hroot hbase _ (asks_stageBatch isLocal_of_isOfArea _ _)

/-- Every command that uses the stored session leaves one that is up to date. -/
theorem settled_perform (hroot : config.stateDirectory = root)
    (hbase : config.serverUrl.isBase = true) {command : Command}
    (hcommand : command.IsWithSession = true) :
    Leaves (fun w => ∃ t, Settled root past s t w) (command.perform config) := by
  cases command with
  | login user => exact nomatch hcommand
  | logout => exact nomatch hcommand
  | push => exact settled_runPush hroot hbase
  | sections =>
    refine leaves_exists fun t => ?_
    refine settled_connection (fun c => c.client.sections) hroot
      (fun P hP c => Client.leaves_sections hP _) (Client.upToDate_sections rfl hbase)
      fun listing => ?_
    split_ifs
    · exact asks_say _
    · exact asks_forM fun line _ => asks_say line
  | sync =>
    exact leaves_exists fun t => settled_connection (fun c => c.client.sync) hroot
      (fun P hP c => Client.leaves_sync hP _) (Client.upToDate_sync rfl) fun _ => asks_say _
  | snap what =>
    exact leaves_exists fun t => settled_connection (fun c => c.client.snap what) hroot
      (fun P hP c => Client.leaves_snap hP _ what) (Client.upToDate_snap rfl what)
      fun _ => asks_say _
  | add origin files =>
    refine leaves_exists fun t => (leaves_ofExcept _).bind fun s => ?_
    have hlocate : (locateFiles files).Asks (IsLocal root) :=
      asks_locateFiles (fun _ _ => ⟨trivial, trivial⟩) ⟨trivial, trivial⟩
    refine (leaves_settled hlocate).bind fun paths => settled_staging hroot hbase _ ?_
    refine (asks_forM fun e _ => asks_say _).bind fun _ => ?_
    exact asks_stageBatch isLocal_of_isOfArea _ _
  | delete origin names =>
    refine leaves_exists fun t => (leaves_ofExcept _).bind fun s => ?_
    exact settled_staging hroot hbase _ (asks_stageBatch isLocal_of_isOfArea _ _)
  | copy origin target names => exact leaves_exists fun t => settled_runTransfer hroot hbase _ _ _
  | move origin target names => exact leaves_exists fun t => settled_runTransfer hroot hbase _ _ _
  | unstage origin names =>
    refine leaves_exists fun t => (leaves_ofExcept _).bind fun s => ?_
    refine leaves_openState hroot (leaves_settled ?_)
    refine (asks_loadArea isLocal_of_isOfArea).bind fun area => ?_
    refine (asks_ofExcept _).bind fun left => ?_
    exact (asks_say _).bind fun _ => asks_saveArea isLocal_of_isOfArea _
  | clear =>
    refine leaves_exists fun t => leaves_openState hroot (leaves_settled ?_)
    refine (asks_loadArea isLocal_of_isOfArea).bind fun area => ?_
    exact (asks_saveArea isLocal_of_isOfArea _).bind fun _ => asks_say _
  | status =>
    refine leaves_exists fun t => leaves_openState hroot (leaves_settled ?_)
    refine (asks_loadArea isLocal_of_isOfArea).bind fun area => ?_
    exact asks_forM fun line _ => asks_say line

/-! ### Commands one after another -/

/-- The world after commands that are carried out one after another. -/
def worldAfter (w : World) (es : List Errand) : World := es.foldl (fun w e => e.next w) w

/-- The session can be used: it is stored, no token is given in the environment, and the clock shows
a time. -/
structure HasSession (root : Path) (t : Session) (w : World) : Prop where
  stored : Stores root t w
  unset : ∀ x, w.environment.get? tokenVariable = some x → Text.trim x = ""
  clock : w.clock.Supported

/-- The command uses the stored session, and nobody else meddles with it or sends requests before
the next command. -/
structure Errand.IsWithSession (root : Path) (e : Errand) : Prop where
  command : e.command.IsWithSession = true
  directory : e.config.stateDirectory = root
  base : e.config.serverUrl.isBase = true
  session : ∀ t w, HasSession root t w → HasSession root t (e.meanwhile w)
  requests : ∀ w, (e.meanwhile w).requests = w.requests

lemma HasSession.settled {past : List Exchange} (h : HasSession root s w)
    (hpast : w.requests = past) : Settled root past s s w := by
  obtain ⟨dir, bytes, hkeeping, hs⟩ := id h.stored
  refine ⟨h.stored, ⟨[], by rw [hpast, List.append_nil], s.presents_nil, rfl, rfl⟩, ?_, h.clock,
    h.unset⟩
  exact Wire.decodeSession_eq_ok hs

lemma Settled.hasSession (h : Settled root past s t w) : HasSession root t w :=
  ⟨h.1, h.2.unset, h.2.clock⟩

lemma Errand.IsWithSession.next {e : Errand} (he : e.IsWithSession root)
    (hw : ∃ t, Settled root past s t w) : ∃ t, Settled root past s t (e.next w) := by
  obtain ⟨t, ht⟩ := settled_perform he.directory he.base he.command w hw
  have hafter := he.session t _ ht.hasSession
  refine ⟨t, hafter.stored, ?_, ht.2.issued, hafter.clock, hafter.unset⟩
  show ∃ log, (e.meanwhile _).requests = _ ∧ _
  rw [he.requests]
  exact ht.2.log

lemma settled_worldAfter {es : List Errand} (hes : ∀ e ∈ es, e.IsWithSession root)
    (hw : ∃ t, Settled root past s t w) : ∃ t, Settled root past s t (worldAfter w es) := by
  -- the invariant is that the stored session is up to date
  induction es generalizing w with
  | nil => exact hw
  | cons e es ih =>
    rw [worldAfter, List.foldl_cons]
    exact ih (fun e' he' => hes e' (.tail _ he')) ((hes e (.head _)).next hw)

/-- Over any run of commands every refresh presents the refresh token that was handed out last, or
the latest access token if there never was one, and every other request presents the latest access
token; the session that is stored in the end holds the tokens that are due next. -/
theorem tokens_presented (hw : HasSession root s w) {es : List Errand}
    (hes : ∀ e ∈ es, e.IsWithSession root) :
    ∃ log, (worldAfter w es).requests = w.requests ++ log ∧
      (∀ before r d after, log = before ++ (r, d) :: after →
        r.token = some (if r.isRefresh then (s.latestRefresh before).getD (s.latestAccess before)
          else s.latestAccess before)) ∧
      ∃ t, Stores root t (worldAfter w es) ∧ t.accessToken = s.latestAccess log ∧
        t.refreshToken = s.latestRefresh log := by
  obtain ⟨t, hstores, hup⟩ := settled_worldAfter hes ⟨s, hw.settled rfl⟩
  obtain ⟨log, hrequests, hpresents, haccess, hrefresh⟩ := hup.log
  exact ⟨log, hrequests, hpresents, t, hstores, haccess, hrefresh⟩

/-- A session with a refresh token. -/
def rotated : Session := ⟨"ann", "a0", some "r0", ⟨0, 0⟩⟩

/-- One deletion is staged, and the server hands out new tokens at each refresh and is out of order
otherwise. -/
def rotating : World :=
  let dir : Route := [Utf8.encode "s"]
  let staged : StagingArea :=
    ⟨[⟨⟨"b/r/x"⟩, { Commit.empty with toDelete := NameSet.ofNames ["p"] }⟩]⟩
  let bytes := (Wire.stagingAreaValue staged).toOption.elim [] fun v => Utf8.encode v.prettyText
  let tokens (n : Nat) : Json.Value := .object
    [("access_token", .text s!"a{n}"), ("refresh_token", .text s!"r{n}")]
  { World.empty with
    files := ⟨[(dir, .directory),
      (place dir sessionName, .file (Utf8.encode (Wire.sessionValue rotated).prettyText)),
      (place dir stagedName, .file bytes)]⟩
    network := fun n r =>
      if r.isRefresh then .answered [] ⟨200, some (Utf8.encode (tokens (n + 1)).compactText)⟩
      else .answered [] ⟨500, some []⟩ }

/-- A push and then another one. -/
def twoPushes : List Errand :=
  let push : Errand :=
    ⟨.push, ⟨⟨"http".toList, none, .segments [[]], none, none⟩, .ofString "/s", 0⟩, id⟩
  [push, push]

/-- Both pushes fail after their refresh, and the second one presents what the first one got. -/
theorem tokens_presented_twoPushes :
    HasSession (.ofString "/s") rotated rotating ∧
      (∀ e ∈ twoPushes, e.IsWithSession (.ofString "/s")) ∧
      (∃ log, (worldAfter rotating twoPushes).requests = rotating.requests ++ log ∧
        (∀ before r d after, log = before ++ (r, d) :: after →
          r.token = some (if r.isRefresh
            then (rotated.latestRefresh before).getD (rotated.latestAccess before)
            else rotated.latestAccess before)) ∧
        ∃ t, Stores (.ofString "/s") t (worldAfter rotating twoPushes) ∧
          t.accessToken = rotated.latestAccess log ∧ t.refreshToken = rotated.latestRefresh log) ∧
      (worldAfter rotating twoPushes).requests.map (fun e => (e.1.isRefresh, e.1.token)) =
        [(true, some "r0"), (false, some "a1"), (true, some "r1"), (false, some "a3")] := by
  have hsession : HasSession (.ofString "/s") rotated rotating := by
    refine ⟨⟨[Utf8.encode "s"], Utf8.encode (Wire.sessionValue rotated).prettyText, ?_,
      Wire.decode_session ⟨by decide, by decide, by decide⟩⟩, ?_, ⟨by decide, by decide, by decide⟩⟩
    · exact ⟨⟨by decide +kernel, by decide +kernel⟩, by decide +kernel, by decide +kernel⟩
    · exact fun x hx => nomatch hx
  have hpushes : ∀ e ∈ twoPushes, e.IsWithSession (.ofString "/s") := by
    have hpush : Errand.IsWithSession (.ofString "/s")
        ⟨.push, ⟨⟨"http".toList, none, .segments [[]], none, none⟩, .ofString "/s", 0⟩, id⟩ :=
      ⟨rfl, rfl, rfl, fun _ _ h => h, fun _ => rfl⟩
    intro e he
    simp only [twoPushes, List.mem_cons, List.not_mem_nil, or_false, or_self] at he
    exact he ▸ hpush
  exact ⟨hsession, hpushes, tokens_presented hsession hpushes, by decide +kernel⟩

end CommandLine

end PackageStaging
