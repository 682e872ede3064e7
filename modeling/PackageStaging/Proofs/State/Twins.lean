/-
# Worlds that differ in the stored session

Two worlds in which a token is given in the environment may be the same but for the file in which
the session is stored (`Twins`).  A call that does not look there has the same answer in both and
leaves them twins (`Twins.answer`), and so does an attempt that makes no other calls
(`Twins.agrees`).  A connection is opened with the token, and stores nothing
(`Twins.agrees_connection`).
-/
import PackageStaging.Proofs.Files.Apart
import PackageStaging.Proofs.State.Asking

namespace PackageStaging

open Attempt StateDirectory

/-- A token is given in the environment. -/
def HasToken (w : World) : Prop :=
  ∃ x, w.environment.get? tokenVariable = some x ∧ Text.trim x ≠ ""

/-- The token is used, whatever is stored. -/
lemma exec_authenticate_of_token {w : World} {x : String}
    (hx : w.environment.get? tokenVariable = some x) (hne : Text.trim x ≠ "")
    (d : StateDirectory) : d.authenticate.exec w =
      (.ok (.environment, .ofAccessToken (Text.trim x) w.clock), w) := by
  have hask : w.answer (.environment tokenVariable) = (some x, w) := Prod.ext hx rfl
  rw [authenticate, exec_ask_bind, hask]
  simp only [Option.map_some, ne_eq, hne, not_false_eq_true, if_true]
  rfl

/-- What the worlds `w₀` and `w₀'` have become: they are the same but for the session that is stored
in the directory, and that is in either of them what it was.  No file of a request that was sent
meanwhile has been looked for where the session is. -/
structure Twins (dir : Route) (w₀ w₀' w w' : World) : Prop where
  here : w.here = w₀.here
  files : FileTree.Alike (place dir sessionName) w₀.files w₀'.files w.files w'.files
  rest : w' = { w with files := w'.files }
  token : HasToken w
  sent : ∀ e ∈ w.requests, e ∈ w₀.requests ∨
    ∀ p ∈ e.1.body.paths, ¬w₀.files.Passes w₀.here p (place dir sessionName)

/-- The path leads to a file in a directory, and neither of them is at the place. -/
def FileTree.LeadsElsewhere (t : FileTree) (here : Route) (p : Path) (r : Route) : Prop :=
  ∃ x, t.locate here p = .ok ⟨x, false⟩ ∧ x ≠ r ∧ x.dropLast ≠ r

/-- The calls that do not look at the session that is stored in the directory. -/
def Call.IsBlind (dir : Route) (w₀ : World) : Call → Prop
  | .readFile p | .size p => ¬w₀.files.Passes w₀.here p (place dir sessionName)
  | .isFile p => ¬w₀.files.LeadsTo w₀.here p (place dir sessionName)
  | .writeFile p _ | .removeFile p => w₀.files.LeadsElsewhere w₀.here p (place dir sessionName)
  | .replaceFile p q => w₀.files.LeadsElsewhere w₀.here p (place dir sessionName) ∧
      w₀.files.LeadsElsewhere w₀.here q (place dir sessionName)
  | .send r => ∀ p ∈ r.body.paths, ¬w₀.files.Passes w₀.here p (place dir sessionName)
  | .makeDirectory _ | .isDirectory _ => False
  | _ => True

lemma Call.isBlind_send {dir : Route} {w₀ : World} (r : Http.Request) (hr : r.body.paths = []) :
    Call.IsBlind dir w₀ (.send r) := by
  intro p hp
  rw [hr] at hp
  exact absurd hp List.not_mem_nil

namespace Twins

variable {α : Type} {dir : Route} {root : Path} {w₀ w₀' w w' : World} {t : Attempt α}
  {config : Config}

lemma refl (htoken : HasToken w) (hrest : w' = { w with files := w'.files })
    (hfiles : FileTree.Apart (place dir sessionName) w.files w'.files) : Twins dir w w' w w' :=
  ⟨rfl, .refl hfiles, hrest, htoken, fun _ he => .inl he⟩

/-! ### Calls -/

lemma change (h : Twins dir w₀ w₀' w w') {r r' : Except SystemFault FileTree}
    (hr : FileTree.AlikeChange (place dir sessionName) w.files w'.files r r') :
    (w'.change r').1 = (w.change r).1 ∧ Twins dir w₀ w₀' (w.change r).2 (w'.change r').2 := by
  cases hr with
  | refused f => exact ⟨rfl, h⟩
  | @done u u' hu =>
    refine ⟨rfl, h.here, h.files.trans hu, ?_, h.token, h.sent⟩
    show { w' with files := u' } = { w with files := u' }
    rw [h.rest]

/-- A place elsewhere is one to which the path leads in all worlds that come about. -/
lemma located (h : Twins dir w₀ w₀' w w') {p : Path}
    (hp : w₀.files.LeadsElsewhere w₀.here p (place dir sessionName)) :
    w.files.LeadsElsewhere w.here p (place dir sessionName) := by
  obtain ⟨x, hx, hne⟩ := hp
  refine ⟨x, ?_, hne⟩
  rw [h.here]
  exact FileTree.locate_of_keeps hx h.files.directories.keeps

lemma not_passes (h : Twins dir w₀ w₀' w w') {p : Path}
    (hp : ¬w₀.files.Passes w₀.here p (place dir sessionName)) :
    ¬w.files.Passes w.here p (place dir sessionName) := by
  rwa [h.here, h.files.directories.passes_iff]

/-- Files that are not looked for where the session is have the same contents in both worlds. -/
lemma contents_eq (h : Twins dir w₀ w₀' w w') {ps : List Path}
    (hps : ∀ p ∈ ps, ¬w₀.files.Passes w₀.here p (place dir sessionName)) :
    w'.contents ps = w.contents ps := by
  have hhere : w'.here = w.here := by rw [h.rest]
  induction ps with
  | nil => rfl
  | cons p ps ih =>
    have hread := h.files.apart.read_eq (h.not_passes (hps p (.head _)))
    have hrest := ih fun q hq => hps q (.tail _ hq)
    rw [World.contents, World.contents, hhere, hread, hrest]

/-- A request whose files are such has the same fate. -/
lemma delivery_eq (h : Twins dir w₀ w₀' w w') {r : Http.Request}
    (hr : ∀ p ∈ r.body.paths, ¬w₀.files.Passes w₀.here p (place dir sessionName)) :
    w'.delivery r = w.delivery r := by
  have hnetwork : w'.network w'.requests.length r = w.network w.requests.length r := by
    rw [h.rest]
  rw [World.delivery, World.delivery, h.contents_eq hr, hnetwork]

/-- A call that does not look at the session has the same answer in both worlds, and leaves them as
alike as they were. -/
theorem answer (h : Twins dir w₀ w₀' w w') {c : Call} (hc : c.IsBlind dir w₀) :
    (w'.answer c).1 = (w.answer c).1 ∧
      Twins dir w₀ w₀' (w.answer c).2 (w'.answer c).2 := by
  have hapart := h.files.apart
  obtain ⟨u, rfl⟩ : ∃ u, w' = { w with files := u } := ⟨w'.files, h.rest⟩
  cases c with
  | readFile p => exact ⟨hapart.read_eq (h.not_passes hc), h⟩
  | size p => exact ⟨hapart.size_eq (h.not_passes hc), h⟩
  | isFile p =>
    refine ⟨hapart.isFile_eq ?_, h⟩
    rwa [h.here, h.files.directories.leadsTo_iff]
  | writeFile p content =>
    obtain ⟨x, hx, hne, hparent⟩ := h.located hc
    exact h.change (hapart.write hne hx hparent)
  | removeFile p =>
    obtain ⟨x, hx, hne, -⟩ := h.located hc
    exact h.change (hapart.removeFile hne hx)
  | replaceFile p q =>
    obtain ⟨x, hx, hne, -⟩ := h.located hc.1
    obtain ⟨y, hy, hne', hparent⟩ := h.located hc.2
    exact h.change (hapart.replaceFile hne hx hy hne' hparent)
  | send r =>
    have hdelivery := h.delivery_eq hc
    refine ⟨hdelivery, h.here, h.files, ?_, h.token, fun e he => ?_⟩
    · rw [World.answer, World.answer, hdelivery]
    · rcases List.mem_append.1 he with he | he
      · exact h.sent e he
      · rw [List.mem_singleton.1 he]
        exact .inr hc
  | print channel text =>
    cases channel with
    | standard => exact ⟨rfl, h.here, h.files, rfl, h.token, h.sent⟩
    | diagnostic => exact ⟨rfl, h.here, h.files, rfl, h.token, h.sent⟩
  | makeDirectory p | isDirectory p => exact hc.elim
  | workingDirectory | environment name | now | prompt label isSecret => exact ⟨rfl, h⟩

/-- An attempt that does not look at the session does the same in both worlds. -/
lemma agrees (h : Twins dir w₀ w₀' w w') (ht : t.Asks (Call.IsBlind dir w₀)) :
    t.Agrees (Twins dir w₀ w₀') w w' :=
  Program.Asks.agrees ht (fun _ hc _ _ h => h.answer hc) h

/-! ### The state directory -/

lemma enters (h : Twins dir w₀ w₀' w w') (henters : w₀.files.Enters w₀.here root dir) :
    w.files.Enters w.here root dir ∧ w'.files.Enters w'.here root dir := by
  have hw : w.files.Enters w.here root dir := by
    rw [h.here]
    exact henters.mono h.files.directories.keeps
  have hhere : w'.here = w.here := by rw [h.rest]
  exact ⟨hw, hhere ▸ hw.mono h.files.apart.sameDirectories.keeps⟩

/-- The calls for the staging area do not look at the session. -/
lemma isBlind_of_isOfArea (h : Twins dir w₀ w₀' w w') (henters : w₀.files.Enters w₀.here root dir)
    (c : Call) (hc : IsOfArea root c) : c.IsBlind dir w₀ := by
  have hfile : w₀.files.node? (place dir sessionName) ≠ some .directory := by
    rw [← h.files.place]
    exact h.files.apart.file
  have hlocated : ∀ {n}, n ∈ namesOf stagedName →
      w₀.files.locate w₀.here (path ⟨root⟩ n) = .ok ⟨place dir n, false⟩ := fun hn =>
    locate_of_enters henters (namesOf_subset staged_kept _ hn)
  have hne : ∀ {n}, n ∈ namesOf stagedName → place dir n ≠ place dir sessionName := by
    intro n hn heq
    rw [place_inj.1 heq] at hn
    exact absurd hn (by decide)
  have helsewhere : ∀ {p}, (∃ n ∈ namesOf stagedName, p = path ⟨root⟩ n) →
      w₀.files.LeadsElsewhere w₀.here p (place dir sessionName) := by
    rintro p ⟨n, hn, rfl⟩
    refine ⟨_, hlocated hn, hne hn, ?_⟩
    -- the directory is none of its own files
    rw [dropLast_place]
    intro heq
    exact hfile (heq ▸ henters.directory)
  cases c with
  | readFile p =>
    obtain ⟨n, hn, rfl⟩ := hc
    exact FileTree.not_passes_of_locate (hlocated hn) hfile (hne hn)
  | writeFile p content => exact helsewhere hc
  | removeFile p => exact helsewhere hc
  | replaceFile p q => exact ⟨helsewhere hc.1, helsewhere hc.2⟩
  | print channel text => trivial
  | _ => exact hc.elim

/-- The state directory is there in both worlds. -/
lemma agrees_opened (h : Twins dir w₀ w₀' w w') (henters : w₀.files.Enters w₀.here root dir)
    {g : StateDirectory → Attempt α} (hg : (g ⟨root⟩).Agrees (Twins dir w₀ w₀') w w') :
    (StateDirectory.opened root >>= g).Agrees (Twins dir w₀ w₀') w w' :=
  agrees_bind_of_exec (opened_of_enters (h.enters henters).1)
    (opened_of_enters (h.enters henters).2) hg

/-! ### Connections -/

/-- Both worlds have the same connection, which is opened with the token. -/
lemma connected (h : Twins dir w₀ w₀' w w') (config : Config) (d : StateDirectory) : ∃ client,
    (Connection.opened config d).exec w = (.ok ⟨client, .environment⟩, w) ∧
      (Connection.opened config d).exec w' = (.ok ⟨client, .environment⟩, w') := by
  have henvironment : w'.environment = w.environment := by rw [h.rest]
  have hclock : w'.clock = w.clock := by rw [h.rest]
  obtain ⟨x, hx, hne⟩ := h.token
  have hrun := exec_authenticate_of_token hx hne d
  have hrun' := exec_authenticate_of_token (henvironment ▸ hx) hne d
  rw [hclock] at hrun'
  refine ⟨⟨config.serverUrl, some (.ofAccessToken (Text.trim x) w.clock)⟩, ?_, ?_⟩
  · rw [Connection.opened, exec_bind_ok hrun]
    rfl
  · rw [Connection.opened, exec_bind_ok hrun']
    rfl

lemma agrees_connection (h : Twins dir w₀ w₀' w w') {d : StateDirectory}
    {g : Connection → Attempt α}
    (hg : ∀ client, (g ⟨client, .environment⟩).Agrees (Twins dir w₀ w₀') w w') :
    (Connection.opened config d >>= g).Agrees (Twins dir w₀ w₀') w w' := by
  obtain ⟨client, hw, hw'⟩ := h.connected config d
  exact agrees_bind_of_exec hw hw' (hg client)

end Twins

end PackageStaging
