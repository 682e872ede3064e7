/-
# Isolation of the stored session

A command that is given a token in the environment does not look at the session that is stored in
the state directory, and leaves it as it is: in two worlds that differ in nothing but this session
the program sends the same requests, comes to the same result and leaves the same files
(`program_isolated`).  For this no file that the command is to work with may be looked for where the
session is; `add` tells whether the session is stored if it is told to add it
(`add_sees_session`).
-/
import PackageStaging.Proofs.CommandLine.Tokens
import PackageStaging.Proofs.State.Twins

namespace PackageStaging

open Attempt StateDirectory

variable {dir : Route} {root : Path} {w₀ w₀' w w' : World} {config : Config}

/-! ### Pushes -/

/-- A push does the same in both worlds, if none of the files that it sends is looked for where the
session is. -/
lemma Push.agrees_run {a : StagingArea} (h : Twins dir w₀ w₀' w w')
    (hfiles : ∀ payload, Payload.encode a = .ok payload → ∀ artifact ∈ payload.artifacts,
      ¬w₀.files.Passes w₀.here artifact.path (place dir sessionName))
    (c : Client) : (run CommandLine.showEvent c a).Agrees (Twins dir w₀ w₀') w w' := by
  have hwatch : ∀ e, (CommandLine.showEvent e).Asks (Call.IsBlind dir w₀) :=
    CommandLine.asks_showEvent fun _ _ => trivial
  refine (h.agrees (asks_forM fun e _ => hwatch e)).bind fun _ u u' _ h => ?_
  refine (h.agrees (asks_attend hwatch _ _)).bind fun s v v' hrun h => ?_
  have hwaits : Waits a .refreshing s.2 := by
    rw [gives_attend _ _ _ _ _ _ hrun]
    exact waits_refreshing a
  refine (h.agrees (asks_runRefresh hwatch Call.isBlind_send trivial c s)).bind
    fun r x x' hrun h => ?_
  have hwaits' : Waits a .uploading r.2.2 := gives_runRefresh _ c hwaits _ _ _ hrun
  refine (h.agrees (asks_runCommit hwatch fun payload hstage => ?_)).bind fun _ _ _ _ h =>
    agrees_pure _ h
  -- the payload that is being sent is the encoding of the staging area
  obtain ⟨hencode, -⟩ := isOnCourse_of_uploading (A := fun _ => True) hwaits'.1 hstage
  have hclear := hfiles payload hencode
  refine Client.asks_commit hclear (fun req hreq p hp => ?_) _
  rw [hreq] at hp
  obtain ⟨artifact, hartifact, rfl⟩ := List.mem_map.1 hp
  exact hclear artifact hartifact

namespace CommandLine

/-! ### Commands -/

section Commands

variable (h : Twins dir w₀ w₀' w w') (henters : w₀.files.Enters w₀.here root dir)
  (hroot : config.stateDirectory = root)

include h

lemma agrees_checkSections (d : StateDirectory) (sections : List SectionAddress) :
    (checkSections config d sections).Agrees (Twins dir w₀ w₀') w w' := by
  obtain ⟨client, hw, hw'⟩ := h.connected config d
  have hrun : (Attempt.outcome (Connection.opened config d)).exec w =
      (.ok (.ok ⟨client, .environment⟩), w) := by rw [exec_outcome, hw]
  have hrun' : (Attempt.outcome (Connection.opened config d)).exec w' =
      (.ok (.ok ⟨client, .environment⟩), w') := by rw [exec_outcome, hw']
  refine agrees_bind_of_exec hrun hrun' (h.agrees ?_)
  -- the session of the token is not stored, whatever the server has answered
  refine (Client.asks_sections Call.isBlind_send client).bind fun listing => ?_
  exact (asks_pure ()).bind fun _ => asks_ofExcept _

include henters hroot

lemma agrees_openState {α : Type} {g : StateDirectory → Attempt α}
    (hg : (g ⟨root⟩).Agrees (Twins dir w₀ w₀') w w') :
    (openState config >>= g).Agrees (Twins dir w₀ w₀') w w' := by
  rw [openState, hroot]
  exact h.agrees_opened henters hg

/-- Asking the server over a connection. -/
lemma agrees_asking {α : Type} {ask : Connection → Attempt α} {report : α → Attempt Unit}
    (hask : ∀ c, (ask c).Asks (Call.IsBlind dir w₀))
    (hreport : ∀ x, (report x).Asks (Call.IsBlind dir w₀)) :
    (do
      let d ← openState config
      let connection ← Connection.opened config d
      let x ← ask connection
      connection.keepSession d
      report x).Agrees (Twins dir w₀ w₀') w w' := by
  refine agrees_openState h henters hroot (h.agrees_connection fun client => h.agrees ?_)
  exact (hask _).bind fun x => (asks_pure ()).bind fun _ => hreport x

/-- A batch is staged after the sections have been checked. -/
lemma agrees_staging (sections : List SectionAddress) {rest : StateDirectory → Attempt Unit}
    (hrest : (rest ⟨root⟩).Asks (Call.IsBlind dir w₀)) :
    (do
      let d ← openState config
      checkSections config d sections
      rest d).Agrees (Twins dir w₀ w₀') w w' := by
  refine agrees_openState h henters hroot ?_
  exact (agrees_checkSections h ⟨root⟩ sections).bind fun _ _ _ _ h => h.agrees hrest

lemma agrees_runPush
    (huploaded : ∀ a payload, ((loadArea ⟨root⟩).exec w).1 = .ok a →
      Payload.encode a = .ok payload → ∀ artifact ∈ payload.artifacts,
        ¬w₀.files.Passes w₀.here artifact.path (place dir sessionName)) :
    (runPush config).Agrees (Twins dir w₀ w₀') w w' := by
  have harea := h.isBlind_of_isOfArea henters
  have hsay : ∀ line, (say line).Asks (Call.IsBlind dir w₀) := fun line => asks_ask trivial
  refine agrees_openState h henters hroot ?_
  refine (h.agrees (asks_loadArea harea)).bind fun a u u' hload h => ?_
  have hclear : ∀ payload, Payload.encode a = .ok payload → _ := fun payload =>
    huploaded a payload (by rw [hload])
  split_ifs
  · exact h.agrees (hsay _)
  · refine h.agrees_connection fun client => ?_
    refine (Push.agrees_run h hclear client).bind fun v _ _ _ h => ?_
    obtain ⟨client, push⟩ := v
    dsimp only
    split
    · refine h.agrees ((asks_saveArea harea _).bind fun _ => ?_)
      refine (asks_pure ()).outcome.bind fun _ => (hsay _).bind fun _ => ?_
      split_ifs
      · exact (Client.asks_sections Call.isBlind_send client).outcome.bind fun _ => asks_pure _
      · exact asks_pure _
    · refine h.agrees ((asks_pure ()).outcome.bind fun _ => ?_)
      exact (asks_forM fun line _ => asks_ask trivial).bind fun _ => asks_fail _
    · exact agrees_pure _ h

/-- A command does the same in both worlds, if none of the files that it works with is looked for
where the session is. -/
theorem agrees_perform {command : Command} (hcommand : command.IsWithSession = true)
    (hadded : ∀ origin files, command = .add origin files → ∀ p ∈ files,
      ¬w₀.files.LeadsTo w₀.here p (place dir sessionName))
    (huploaded : command = .push → ∀ a payload, ((loadArea ⟨root⟩).exec w).1 = .ok a →
      Payload.encode a = .ok payload → ∀ artifact ∈ payload.artifacts,
        ¬w₀.files.Passes w₀.here artifact.path (place dir sessionName)) :
    (command.perform config).Agrees (Twins dir w₀ w₀') w w' := by
  have harea := h.isBlind_of_isOfArea henters
  have hsay : ∀ line, (say line).Asks (Call.IsBlind dir w₀) := fun line => asks_ask trivial
  have hstage : ∀ s b, (stageBatch ⟨root⟩ s b).Asks (Call.IsBlind dir w₀) := asks_stageBatch harea
  have hsection : ∀ given, (Attempt.ofExcept (readSection given)).Agrees (Twins dir w₀ w₀') w w' :=
    fun given => agrees_ofExcept _ h
  cases command with
  | login user => cases hcommand
  | logout => cases hcommand
  | sections =>
    refine agrees_asking h henters hroot (fun c => c.client.asks_sections Call.isBlind_send)
      fun listing => ?_
    split_ifs
    · exact hsay _
    · exact asks_forM fun line _ => hsay line
  | sync =>
    exact agrees_asking h henters hroot (fun c => c.client.asks_sync Call.isBlind_send)
      fun _ => hsay _
  | snap what =>
    exact agrees_asking h henters hroot (fun c => c.client.asks_snap Call.isBlind_send what)
      fun _ => hsay _
  | add origin files =>
    refine (hsection origin).bind fun s _ _ _ h => ?_
    refine (h.agrees (asks_locateFiles (hadded origin files rfl) trivial)).bind
      fun paths _ _ _ h => ?_
    refine agrees_staging h henters hroot _ ?_
    exact (asks_forM fun e _ => hsay _).bind fun _ => hstage _ _
  | delete origin names =>
    exact (hsection origin).bind fun s _ _ _ h => agrees_staging h henters hroot _ (hstage _ _)
  | copy origin target names | move origin target names =>
    refine (hsection origin).bind fun s _ _ _ h => ?_
    refine (agrees_ofExcept (readSection target) h).bind fun t _ _ _ h => ?_
    exact agrees_staging h henters hroot _ (hstage _ _)
  | unstage origin names =>
    refine (hsection origin).bind fun s _ _ _ h => agrees_openState h henters hroot (h.agrees ?_)
    refine (asks_loadArea harea).bind fun area => (asks_ofExcept _).bind fun left => ?_
    exact (hsay _).bind fun _ => asks_saveArea harea _
  | clear =>
    refine agrees_openState h henters hroot (h.agrees ?_)
    refine (asks_loadArea harea).bind fun area => ?_
    exact (asks_saveArea harea _).bind fun _ => hsay _
  | status =>
    refine agrees_openState h henters hroot (h.agrees ?_)
    exact (asks_loadArea harea).bind fun area => asks_forM fun line _ => hsay line
  | push => exact agrees_runPush h henters hroot (huploaded rfl)

end Commands

end CommandLine

/-! ### The configuration -/

namespace Config

section Asking

variable {C : Call → Prop} (henvironment : ∀ name, C (.environment name))

include henvironment

lemma asks_environment (name : String) : (Program.ask (.environment name)).Asks C :=
  ⟨henvironment name, fun _ => trivial⟩

lemma asks_home? : home?.Asks C :=
  (asks_environment henvironment "HOME").bind fun h => by
    cases h with
    | none => trivial
    | some h => trivial

lemma asks_directoryOf? (name below : String) : (directoryOf? name below).Asks C := by
  have hhome : (directoryOf?.inHome below).Asks C := (asks_home? henvironment).bind fun _ => trivial
  refine (asks_environment henvironment name).bind fun x => ?_
  split
  · split_ifs
    · trivial
    · exact hhome
  · exact hhome

lemma asks_defaultFile? : defaultFile?.Asks C :=
  (asks_directoryOf? henvironment _ _).bind fun _ => trivial

lemma asks_defaultStateDirectory : defaultStateDirectory.Asks C :=
  (asks_directoryOf? henvironment _ _).bind fun _ => trivial

lemma asks_expanded (p : Path) : (expanded p).Asks C := by
  unfold expanded
  split
  · trivial
  · refine (asks_home? henvironment).bind fun h => ?_
    split
    · trivial
    · trivial

omit henvironment in
lemma asks_readFile {p : Path} (hp : C (.readFile p)) : (readFile p).Asks C := by
  refine Program.Asks.bind (p := Program.ask (.readFile p)) ⟨hp, fun _ => trivial⟩ fun r => ?_
  split
  · trivial
  · split
    · trivial
    · trivial

end Asking

/-- The calls that look something up, but no file where the session is. -/
def Looks (dir : Route) (w : World) : Call → Prop
  | .environment _ => True
  | .readFile p | .size p => ¬w.files.Passes w.here p (place dir sessionName)
  | _ => False

/-- Both worlds are still what they were. -/
def Unchanged (w w' u u' : World) : Prop := w = u ∧ w' = u'

section Loading

variable (h : Twins dir w w' w w')

include h

/-- Looking something up has the same answer in both worlds. -/
lemma agrees_looking {α : Type} {p : Program α} (hp : p.Asks (Looks dir w)) :
    p.Agrees (Unchanged w w') w w' := by
  refine hp.agrees (fun c hc u u' hu => ?_) ⟨rfl, rfl⟩
  obtain ⟨rfl, rfl⟩ := hu
  cases c with
  | environment name => exact ⟨(h.answer (c := .environment name) trivial).1, rfl, rfl⟩
  | readFile p => exact ⟨(h.answer (c := .readFile p) hc).1, rfl, rfl⟩
  | size p => exact ⟨(h.answer (c := .size p) hc).1, rfl, rfl⟩
  | _ => exact hc.elim

/-- The settings are the same, if their file is not looked for where the session is. -/
lemma agrees_readSettings {o : Overrides}
    (hfile : ∀ p, o.file.or (defaultFile?.run w).1 = some p →
      ¬w.files.Passes w.here p (place dir sessionName)) :
    (readSettings o).Agrees (Unchanged w w') w w' := by
  unfold readSettings
  cases ho : o.file with
  | some p => exact agrees_looking h (asks_readFile (hfile p (by rw [ho]; rfl)))
  | none =>
    refine (agrees_looking h (asks_defaultFile? fun _ => trivial)).bind fun p? u u' hrun hu => ?_
    obtain ⟨rfl, rfl⟩ := hu
    cases p? with
    | none => exact Program.agrees_done _ ⟨rfl, rfl⟩
    | some p =>
      have hp := hfile p (by rw [ho, hrun]; rfl)
      refine agrees_looking h (Program.Asks.bind (p := Program.ask (.size p))
        ⟨hp, fun _ => trivial⟩ fun r => ?_)
      cases r with
      | ok size => exact asks_readFile hp
      | error f => trivial

/-- The configuration is the same in both worlds, if its file is not looked for where the session
is; nothing is changed by loading it. -/
lemma run_load [Url.Domain.Rules] {o : Overrides}
    (hfile : ∀ p, o.file.or (defaultFile?.run w).1 = some p →
      ¬w.files.Passes w.here p (place dir sessionName)) :
    ((load o).run w).2 = w ∧ (load o).run w' = (((load o).run w).1, w') := by
  have henvironment : ∀ name, Looks dir w (.environment name) := fun _ => trivial
  have hload : (load o).Agrees (Unchanged w w') w w' := by
    refine (agrees_readSettings h hfile).bind fun r u u' _ hu => ?_
    obtain ⟨rfl, rfl⟩ := hu
    cases r with
    | error f => exact Program.agrees_done _ ⟨rfl, rfl⟩
    | ok s =>
      refine agrees_looking h ((asks_environment henvironment _).bind fun inEnvironment => ?_)
      refine (asks_environment henvironment _).bind fun directory => ?_
      dsimp only
      split
      · refine (asks_expanded henvironment _).bind fun stateDirectory => ?_
        split
        · trivial
        · trivial
      · refine (asks_defaultStateDirectory henvironment).bind fun stateDirectory => ?_
        split
        · trivial
        · trivial
  exact ⟨hload.2.1.symm, Prod.ext hload.1 hload.2.2.symm⟩

end Loading

end Config

/-! ### The program -/

namespace CommandLine

/-- The state directory of an invocation is there, and nothing that the invocation works with is
where the session is kept in it. -/
structure Invocation.KeepsClear [Url.Domain.Rules] (i : Invocation) (dir : Route) (w : World) :
    Prop where
  enters : ∀ config, ((Config.load i.overrides).run w).1 = .ok config →
    w.files.Enters w.here config.stateDirectory dir
  /-- The configuration file is not looked for there. -/
  configuration : ∀ p, i.overrides.file.or (Config.defaultFile?.run w).1 = some p →
    ¬w.files.Passes w.here p (place dir sessionName)
  /-- No file that is to be added is the session. -/
  added : ∀ origin files, i.command = .add origin files → ∀ p ∈ files,
    ¬w.files.LeadsTo w.here p (place dir sessionName)
  /-- No file that is to be uploaded is looked for there. -/
  uploaded : i.command = .push → ∀ config a payload,
    ((Config.load i.overrides).run w).1 = .ok config →
    ((loadArea ⟨config.stateDirectory⟩).exec w).1 = .ok a → Payload.encode a = .ok payload →
    ∀ artifact ∈ payload.artifacts,
      ¬w.files.Passes w.here artifact.path (place dir sessionName)

lemma Invocation.agrees_perform [Url.Domain.Rules] {i : Invocation} (h : Twins dir w w' w w')
    (hcommand : i.command.IsWithSession = true) (hclear : i.KeepsClear dir w) :
    i.perform.Agrees (Twins dir w w') w w' := by
  obtain ⟨hsame, hrun'⟩ := Config.run_load h hclear.configuration
  have hrun : (Config.load i.overrides).run w = (((Config.load i.overrides).run w).1, w) :=
    Prod.ext rfl hsame
  have hexec : ∀ {u : World} {r : Except Config.Fault Config},
      (Config.load i.overrides).run u = (r, u) →
      exec (ExceptT.mk do
        return (← Config.load i.overrides).mapError fun f => Error.config f.message) u =
          (r.mapError fun f => Error.config f.message, u) := by
    intro u r hu
    show Program.run (Program.bind (Config.load i.overrides) fun r =>
      Program.done (r.mapError fun f => Error.config f.message)) u = _
    rw [Program.run_bind, hu]
    rfl
  rw [perform]
  cases hload : ((Config.load i.overrides).run w).1 with
  | error f =>
    rw [hload] at hrun hrun'
    exact agrees_of_exec (exec_bind_error (hexec hrun)) (exec_bind_error (hexec hrun')) h
  | ok config =>
    rw [hload] at hrun hrun'
    refine agrees_bind_of_exec (hexec hrun) (hexec hrun') ?_
    exact CommandLine.agrees_perform h (hclear.enters config hload) rfl hcommand hclear.added
      fun hpush a payload => hclear.uploaded hpush config a payload hload

/-- With a token in the environment a command does the same in two worlds that differ in nothing but
the stored session: it has the same exit code, sends the same requests, which have the same files in
them, prints the same and leaves the same files.  The stored session stays in each world what it
is. -/
theorem program_isolated [Url.Domain.Rules] {words : List Bytes} {i : Invocation}
    (hwords : Invocation.ofWords words = .ok i) (hcommand : i.command.IsWithSession = true)
    (htoken : HasToken w) (hrest : w' = { w with files := w'.files })
    (hfiles : FileTree.Apart (place dir sessionName) w.files w'.files)
    (hclear : i.KeepsClear dir w) :
    let after := ((program words).run w).2
    let after' := ((program words).run w').2
    ((program words).run w').1 = ((program words).run w).1 ∧
      after' = { after with files := after'.files } ∧
      (∀ r, r ≠ place dir sessionName → after'.files.node? r = after.files.node? r) ∧
      after.files.node? (place dir sessionName) = w.files.node? (place dir sessionName) ∧
      after'.files.node? (place dir sessionName) = w'.files.node? (place dir sessionName) ∧
      ∀ e ∈ after.requests, e ∈ w.requests ∨ ∀ p ∈ e.1.body.paths,
        w'.files.read w'.here p = w.files.read w.here p := by
  intro after after'
  have htwins : Twins dir w w' w w' := .refl htoken hrest hfiles
  have hprogram : (program words).Agrees (Twins dir w w') w w' := by
    rw [program, hwords]
    refine Program.Agrees.bind (p := i.perform.run) (i.agrees_perform htwins hcommand hclear)
      fun r u u' _ h => ?_
    cases r with
    | ok v => exact Program.agrees_done _ h
    | error e =>
      refine Program.Asks.agrees (C := Call.IsBlind dir w) ?_ (fun _ hc _ _ h => h.answer hc) h
      exact ⟨trivial, fun _ => trivial⟩
  obtain ⟨hresult, h⟩ := hprogram
  refine ⟨hresult, h.rest, h.files.apart.same, h.files.place, h.files.place', fun e he => ?_⟩
  refine (h.sent e he).imp_right fun hpaths p hp => ?_
  have hhere : w'.here = w.here := by rw [hrest]
  rw [hhere]
  exact hfiles.read_eq (hpaths p hp)

/-- A token is given in the environment, while a session is stored and one deletion is staged.  The
server hands out new tokens at each refresh and is out of order otherwise. -/
def tokenGiven : World :=
  { rotating with environment := .ofList [(tokenVariable, " t "), ("BXT_STATE_DIR", "/s")] }

/-- The same without a stored session. -/
def loggedOut : World :=
  { tokenGiven with files := tokenGiven.files.remove (place [Utf8.encode "s"] sessionName) }

lemma hasToken_tokenGiven : HasToken tokenGiven := ⟨" t ", rfl, by decide⟩

lemma apart_loggedOut :
    FileTree.Apart (place [Utf8.encode "s"] sessionName) tokenGiven.files loggedOut.files := by
  have hplace : place [Utf8.encode "s"] sessionName ≠ [] := by simp [place]
  refine ⟨fun x hx => ?_, by decide +kernel, by decide +kernel⟩
  exact (FileTree.node?_remove _ _ _ hplace).trans (if_neg (Ne.symm hx))

/-- The configuration of both worlds. -/
def localConfig : Config :=
  ⟨⟨"http".toList, some ⟨[], [], .domain "localhost".toList, some 8080⟩, .segments [[]], none, none⟩,
    .ofString "/s", Config.defaultTimeout⟩

lemma load_tokenGiven : ((Config.load ⟨none, none⟩).run tokenGiven).1 = .ok localConfig := by
  decide +kernel

lemma enters_tokenGiven (config : Config)
    (h : ((Config.load ⟨none, none⟩).run tokenGiven).1 = .ok config) :
    tokenGiven.files.Enters tokenGiven.here config.stateDirectory [Utf8.encode "s"] := by
  rw [← Except.ok.inj (load_tokenGiven.symm.trans h)]
  exact ⟨by decide +kernel, by decide +kernel⟩

/-- Nothing that a push works with is where the session is. -/
lemma keepsClear_push :
    Invocation.KeepsClear ⟨.push, ⟨none, none⟩, false⟩ [Utf8.encode "s"] tokenGiven where
  enters := enters_tokenGiven
  configuration p hp := by
    have hnone : (Config.defaultFile?.run tokenGiven).1 = none := by decide +kernel
    rw [hnone] at hp
    cases hp
  added origin files hadd := by cases hadd
  uploaded _ config a payload hconfig ha hpayload artifact hartifact := by
    -- a deletion is staged, with which no file is sent
    have hloaded : ((loadArea ⟨localConfig.stateDirectory⟩).exec tokenGiven).1.toOption.map
        (fun a => (Payload.encode a).toOption.map Payload.artifacts) = some (some []) := by
      decide +kernel
    rw [Except.ok.inj (load_tokenGiven.symm.trans hconfig), ha] at hloaded
    have hnone : payload.artifacts = [] := by simpa [Except.toOption, hpayload] using hloaded
    rw [hnone] at hartifact
    exact absurd hartifact List.not_mem_nil

/-- A push presents the renewed token with its commit, and stores none. -/
theorem program_isolated_push :
    let after := ((program [Utf8.encode "push"]).run tokenGiven).2
    let after' := ((program [Utf8.encode "push"]).run loggedOut).2
    after' = { after with files := after'.files } ∧
      after.files.node? (place [Utf8.encode "s"] sessionName) =
        some (.file (Utf8.encode (Wire.sessionValue rotated).prettyText)) ∧
      after'.files.node? (place [Utf8.encode "s"] sessionName) = none ∧
      after.requests.map (fun e => (e.1.isRefresh, e.1.token)) =
        [(true, some "t"), (false, some "a1")] := by
  intro after after'
  have hwords : Invocation.ofWords [Utf8.encode "push"] = .ok ⟨.push, ⟨none, none⟩, false⟩ := rfl
  have hrest : loggedOut = { tokenGiven with files := loggedOut.files } := rfl
  obtain ⟨-, hsame, -, hstored, hstored', -⟩ :=
    program_isolated hwords rfl hasToken_tokenGiven hrest apart_loggedOut keepsClear_push
  exact ⟨hsame, hstored.trans (by decide +kernel), hstored'.trans (by decide +kernel),
    by decide +kernel⟩

/-- An upload whose files are both the stored session. -/
def sessionStaged : StagingArea :=
  let session : Artifact := ⟨.ofString "/s/session.json"⟩
  ⟨[⟨⟨"b/r/x"⟩, { Commit.empty with
    toAdd := .ofList [("p", ⟨"p", .ofString "b/r/x", some session, some session⟩)] }⟩]⟩

/-- If the stored session is itself to be added, a request is sent only if it is there; it can also
be taken for the configuration file, and be staged for upload. -/
theorem add_sees_session :
    let add := [Utf8.encode "add", Utf8.encode "b/r/x", Utf8.encode "/s/session.json"]
    let sync := [Utf8.encode "--config", Utf8.encode "/s/session.json", Utf8.encode "sync"]
    let push := Push.run showEvent ⟨localConfig.serverUrl, some (.ofAccessToken "t" ⟨0, 0⟩)⟩
      sessionStaged
    (HasToken tokenGiven ∧ loggedOut = { tokenGiven with files := loggedOut.files } ∧
        FileTree.Apart (place [Utf8.encode "s"] sessionName) tokenGiven.files loggedOut.files ∧
        ∀ config, ((Config.load ⟨none, none⟩).run tokenGiven).1 = .ok config →
          tokenGiven.files.Enters tokenGiven.here config.stateDirectory [Utf8.encode "s"]) ∧
      (((program add).run tokenGiven).2.requests.length = 1 ∧
        ((program add).run loggedOut).2.requests.length = 0) ∧
      ((program sync).run tokenGiven).2.diagnosis ≠ ((program sync).run loggedOut).2.diagnosis ∧
      (push.exec tokenGiven).2.requests.length = 2 ∧ (push.exec loggedOut).2.requests.length = 1 :=
  ⟨⟨hasToken_tokenGiven, rfl, apart_loggedOut, enters_tokenGiven⟩,
    ⟨by decide +kernel, by decide +kernel⟩, by decide +kernel, by decide +kernel, by decide +kernel⟩

end CommandLine

end PackageStaging
