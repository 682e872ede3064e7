/-
# Every byte is accounted for

A client that commits a payload looks at the sizes of all files before it sends anything.  What it
adds up is the size of the files that are fields of its request (`Client.exec_measure`), so when
these are sent as a whole the reports are the running sums of the chunks up to that total
(`Http.Transmission.Whole`).  A push that is told so tells ascending fractions of which the last is
one.  The main result is `Client.commit_accounts`.
-/
import PackageStaging.Proofs.Http.Streaming
import PackageStaging.Proofs.Push.Records
import PackageStaging.Proofs.Push.Submission
import PackageStaging.Proofs.Running

namespace PackageStaging

open Http (SendingProgress Transmission volume)

/-! ### Files -/

/-- The files among the parts of a payload, in the order of the parts. -/
def Payload.files (p : Payload) : List Path :=
  p.parts.filterMap fun part => part.file?.map Artifact.path

lemma FileTree.size_of_read {t : FileTree} {here : Route} {path : Path} {content : Bytes}
    (h : t.read here path = .ok content) : t.size here path = .ok content.length := by
  rw [read] at h
  rw [size]
  cases hfind : t.find here path with
  | error fault =>
    rw [hfind] at h
    exact nomatch h
  | ok found =>
    obtain ⟨route, node⟩ := found
    rw [hfind] at h
    cases node with
    | directory => exact nomatch h
    | file bytes =>
      rw [← Except.ok.inj h]
      rfl

namespace World

variable {w : World} {disk : Path → Bytes}

lemma contents_eq {ps : List Path} (h : ∀ f ∈ ps, w.files.read w.here f = .ok (disk f)) :
    w.contents ps = ps.map disk := by
  induction ps with
  | nil => rfl
  | cons f ps ih =>
    rw [contents, h f (.head _), List.map_cons, ← ih fun g hg => h g (.tail _ hg)]

/-- What is read of the files of a request. -/
lemma reads_delivery (w : World) (r : Http.Request) :
    (w.delivery r).reads = Http.readAll (w.contents r.body.paths)
      ((w.network w.requests.length r).files?.getD []) := by
  unfold delivery
  cases w.network w.requests.length r with
  | unreachable =>
    -- nothing is read without a size
    cases w.contents r.body.paths with
    | nil => rfl
    | cons content contents => rfl
  | unanswered sizes => rfl
  | answered sizes reply => rfl

/-- A body with these files, of which so many bytes are to be sent, once its request has been made
in a world. -/
def transmission (w : World) (total : Nat) (r : Http.Request) : Transmission :=
  .ofReads total r.body.paths (w.delivery r).reads

end World

namespace Client

open Attempt

variable {c : Client} {p : Payload} {s : Session} {r : Http.Request} {w : World}
  {disk : Path → Bytes}

/-! ### The sizes of the files -/

/-- The files whose sizes are added up are the files of the payload. -/
lemma map_path_artifacts (p : Payload) : p.artifacts.map Artifact.path = p.files := by
  rw [Payload.artifacts, Payload.files, List.map_filterMap]

/-- The files that are sent are the files of the payload. -/
lemma paths_form (p : Payload) (sizes : List Nat) : (formOf p sizes).paths = p.files := by
  rw [formOf, Http.Body.paths, Payload.files, List.filterMap_map]
  congr 1
  funext part
  cases part with
  | file field a => rfl
  | text field value => rfl

lemma exec_size {path : Path} {size : Except SystemFault Nat}
    (h : w.files.size w.here path = size) {α : Type} (g : Nat → Attempt α) :
    (ask (.size path) >>= fun r => ofSystem r >>= g).exec w = (ofSystem size >>= g).exec w := by
  rw [exec_ask_bind, ← h]
  rfl

lemma exec_sizesOf {ps : List Path} (h : ∀ f ∈ ps, w.files.read w.here f = .ok (disk f)) :
    (sizesOf ps).exec w = (.ok (ps.map fun f => (disk f).length), w) := by
  induction ps with
  | nil => rfl
  | cons f ps ih =>
    have hfirst : (ofSystem (.ok (disk f).length)).exec w = (.ok (disk f).length, w) := rfl
    have hrest := ih fun g hg => h g (.tail _ hg)
    rw [sizesOf, exec_size (FileTree.size_of_read (h f (.head _))), exec_bind_ok hfirst,
      exec_bind_ok hrest, exec_pure, List.map_cons]

/-- One file that cannot be looked at is enough. -/
lemma exec_sizesOf_error {ps : List Path}
    (h : ∃ f ∈ ps, ∃ fault, w.files.size w.here f = .error fault) :
    ∃ fault, (sizesOf ps).exec w = (.error (.io (.system fault)), w) := by
  induction ps with
  | nil =>
    obtain ⟨f, hf, -⟩ := h
    exact nomatch hf
  | cons f ps ih =>
    cases hsize : w.files.size w.here f with
    | error fault =>
      refine ⟨fault, ?_⟩
      rw [sizesOf, exec_size hsize]
      rfl
    | ok size =>
      obtain ⟨g, hg, fault, hfault⟩ := h
      have hlater : g ∈ ps := by
        rcases List.mem_cons.1 hg with rfl | hg
        · rw [hsize] at hfault
          exact nomatch hfault
        · exact hg
      obtain ⟨fault, hrest⟩ := ih ⟨g, hlater, fault, hfault⟩
      refine ⟨fault, ?_⟩
      have hfirst : (ofSystem (.ok size)).exec w = (.ok size, w) := rfl
      rw [sizesOf, exec_size hsize, exec_bind_ok hfirst, exec_bind_error hrest]

lemma foldr_length (disk : Path → Bytes) (ps : List Path) :
    (ps.map fun f => (disk f).length).foldr (· + ·) 0 = volume disk ps := by
  induction ps with
  | nil => rfl
  | cons f ps ih => rw [List.map_cons, List.foldr_cons, ih, Http.volume_cons]

/-- The total is the size of the files of the form. -/
lemma exec_measure (h : ∀ f ∈ p.files, w.files.read w.here f = .ok (disk f)) :
    (measure p).exec w =
      (.ok (volume disk p.files, p.files.map fun f => (disk f).length), w) := by
  have hsizes := exec_sizesOf h
  rw [measure, map_path_artifacts, paths_form, exec_bind_ok hsizes, exec_bind_ok hsizes, exec_pure,
    foldr_length]

/-! ### The request -/

/-- The request that sends a payload whose files hold this. -/
def commitRequest (c : Client) (s : Session) (p : Payload) (disk : Path → Bytes) : Http.Request :=
  c.request .post ["packages", "commit"] s.accessToken
    (formOf p (p.files.map fun f => (disk f).length))

/-- Whether a request can be sent: its token can be the value of a header, and there is a way to its
address. -/
def isSendable (r : Http.Request) : Bool :=
  (r.token.all fun t => Http.isHeaderValue (Http.authorization t)) && isSupported r.url

lemma exec_deliver_of_isSendable (h : isSendable r = true) (w : World) :
    ∃ reply, (deliver r).exec w = (.ok ((w.delivery r).reads, reply),
      { w with requests := w.requests ++ [(r, w.delivery r)] }) := by
  obtain ⟨htoken, hurl⟩ := Bool.and_eq_true_iff.1 h
  have hanswer : w.answer (.send r) =
      (w.delivery r, { w with requests := w.requests ++ [(r, w.delivery r)] }) := rfl
  rw [deliver, htoken, hurl]
  simp only [Bool.not_true, Bool.false_eq_true, if_false]
  rw [exec_ask_bind, hanswer]
  cases (w.delivery r).reply? with
  | some reply => exact ⟨_, rfl⟩
  | none => exact ⟨_, rfl⟩

lemma exec_deliver_of_not_isSendable (h : isSendable r = false) (w : World) :
    ∃ e, (deliver r).exec w = (.ok ([], .error e), w) := by
  rw [deliver]
  split_ifs with htoken hurl
  · exact ⟨_, rfl⟩
  · exact ⟨_, rfl⟩
  · rw [Bool.not_eq_true, Bool.not_eq_false'] at htoken hurl
    have hsendable : isSendable r = true := Bool.and_eq_true_iff.2 ⟨htoken, hurl⟩
    exact Bool.noConfusion (h.symm.trans hsendable)

lemma exec_outcome_measure (h : ∀ f ∈ p.files, w.files.read w.here f = .ok (disk f)) :
    (outcome (measure p)).exec w =
      (.ok (.ok (volume disk p.files, p.files.map fun f => (disk f).length)), w) := by
  rw [exec_outcome, exec_measure h]

/-- What is reported is what the streams report whose files are fields of the request. -/
lemma exec_commit (h : ∀ f ∈ p.files, w.files.read w.here f = .ok (disk f))
    (hs : c.session = some s) (hr : isSendable (c.commitRequest s p disk) = true) :
    ∃ answer, (c.commit p).exec w =
      (.ok ((w.transmission (volume disk p.files) (c.commitRequest s p disk)).calls, answer),
        { w with requests := w.requests ++
          [(c.commitRequest s p disk, w.delivery (c.commitRequest s p disk))] }) := by
  obtain ⟨reply, hdeliver⟩ := exec_deliver_of_isSendable hr w
  refine ⟨reply >>= check >>= decoded Wire.readCommitResponse, ?_⟩
  rw [commit, exec_bind_ok (exec_outcome_measure h), hs]
  exact exec_bind_ok hdeliver

/-- Without a session nothing is sent, nor if the request cannot be sent. -/
lemma exec_commit_unsent (h : ∀ f ∈ p.files, w.files.read w.here f = .ok (disk f))
    (hr : ∀ s, c.session = some s → isSendable (c.commitRequest s p disk) = false) :
    ∃ e, (c.commit p).exec w = (.ok ([], .error e), w) := by
  rw [commit, exec_bind_ok (exec_outcome_measure h)]
  cases hs : c.session with
  | none => exact ⟨_, rfl⟩
  | some s =>
    obtain ⟨e, hdeliver⟩ := exec_deliver_of_not_isSendable (hr s hs) w
    exact ⟨e, exec_bind_ok hdeliver⟩

lemma exec_commit_error (h : ∃ f ∈ p.files, ∃ fault, w.files.size w.here f = .error fault) :
    ∃ fault, (c.commit p).exec w = (.ok ([], .error (.io (.system fault))), w) := by
  obtain ⟨fault, hfault⟩ := exec_sizesOf_error h
  have hmeasure : (outcome (measure p)).exec w = (.ok (.error (.io (.system fault))), w) := by
    rw [exec_outcome, measure, map_path_artifacts, exec_bind_error hfault]
  exact ⟨fault, exec_bind_ok hmeasure⟩

/-! ### The streams -/

/-- The streams of a request end if there are reads enough, and then all of its files were sent. -/
lemma transmission_whole (h : ∀ f ∈ r.body.paths, w.files.read w.here f = .ok (disk f))
    (hbound : volume disk r.body.paths < UInt64.size) :
    let t := w.transmission (volume disk r.body.paths) r
    (∀ sizes, (w.network w.requests.length r).files? = some sizes →
        volume disk r.body.paths + r.body.paths.length ≤ sizes.length → t.streams = []) ∧
      (t.streams = [] → t.Whole disk r.body.paths) := by
  have hall := Transmission.ofReads_readAll hbound
    ((w.network w.requests.length r).files?.getD [])
  rw [← World.contents_eq h, ← World.reads_delivery] at hall
  refine ⟨fun sizes hsizes henough => hall.1 ?_, hall.2⟩
  rwa [hsizes, Option.getD_some]

end Client

/-! ### Fractions -/

/-- The fractions of what is reported. -/
def Http.fractions (calls : List SendingProgress) : List Binary64 :=
  calls.map fun r => Coordinator.fraction r.sent r.total

/-- The last fraction is one, and the others are less; there is none if there is nothing to send. -/
lemma Http.Transmission.Whole.getLast?_records {disk : Path → Bytes} {files : List Path}
    {t : Transmission} (ht : t.Whole disk files) :
    (Binary64.records (Http.fractions t.calls)).getLast? =
      if volume disk files = 0 then none else some .one := by
  have hlast := ht.last
  split_ifs at hlast ⊢ with h
  · rw [List.getLast?_eq_none_iff.1 hlast]
    rfl
  · have hwhole : Coordinator.fraction (volume disk files) (volume disk files) ∈
        Http.fractions t.calls :=
      List.mem_map.2 ⟨_, List.mem_of_getLast? hlast, rfl⟩
    rw [Coordinator.fraction_self] at hwhole
    have hpeak : Binary64.IsPeak .one (Http.fractions t.calls) := by
      refine ⟨.inr hwhole, fun x hx => ?_⟩
      obtain ⟨r, -, rfl⟩ := List.mem_map.1 hx
      exact Coordinator.fraction_le_one _ _
    rw [hpeak.getLast?_records, if_neg (by decide)]

namespace Crowd

/-- What a push has told at its end, with this result, when so many bytes were to be sent: ascending
fractions up to one, or none if there was nothing to send. -/
def DeliveredAll (p : Push) (bytes : Nat) (r : Except Error PushOutcome) : Prop :=
  ∃ highs, Delivered p highs r ∧ highs.Pairwise (· < ·) ∧
    highs.getLast? = if bytes = 0 then none else some .one

/-- The sink of a push was called with all that was reported. -/
structure HeardAll (os : List Occurrence) (i : Nat) (calls : List SendingProgress) : Prop where
  inside : empty.CalledInside i os
  fractions : empty.fractions i os = Http.fractions calls

variable {os : List Occurrence} {i : Nat} {p : Push} {disk : Path → Bytes} {files : List Path}
  {t : Transmission} {payload : Payload}

lemma HeardAll.deliveredAll (h : HeardAll os i t.calls) (ht : t.Whole disk files)
    {r : Except Error PushOutcome} (hp : Delivered p (Binary64.records (empty.fractions i os)) r) :
    DeliveredAll p (volume disk files) r :=
  ⟨_, hp, Binary64.recordsAfter_ascend [] _, h.fractions ▸ ht.getLast?_records⟩

/-- What happens to a push when this is reported. -/
def heard (i : Nat) (reports : List SendingProgress) : List Occurrence :=
  reports.map fun r => .to i (.sent r.sent r.total)

lemma map_to_sending (i : Nat) (reports : List SendingProgress) (answer : CommitAnswer) :
    (Push.sending reports answer).map (.to i) =
      heard i reports ++ Occurrence.closing i answer reports.length := by
  rw [closing_eq, Push.sending, List.map_append, List.map_map]
  rfl

/-- The sink of a push that sends its payload is called with each report. -/
lemma calls_heard {c : Crowd} (hi : c.push? i = some p) (hs : p.stage = .uploading payload)
    (hpay : p.payload?.isSome) (reports : List SendingProgress) :
    c.CalledInside i (heard i reports) ∧
      c.fractions i (heard i reports) = Http.fractions reports := by
  induction reports generalizing c p with
  | nil => exact ⟨trivial, rfl⟩
  | cons r reports ih =>
    have hcalled : c.called (.to i (.sent r.sent r.total)) =
        some ⟨i, Coordinator.fraction r.sent r.total⟩ := by
      simp [called, hi, hpay]
    have hnext : (c.step (.to i (.sent r.sent r.total))).push? i =
        some (p.step c.coordinator (.sent r.sent r.total)).2 := by
      rw [push?_to hi, if_pos rfl]
    have hkept : (p.step c.coordinator (.sent r.sent r.total)).2.stage = .uploading payload := by
      rw [Push.step, if_pos hpay]
      exact hs
    have hasked : (p.step c.coordinator (.sent r.sent r.total)).2.payload?.isSome :=
      (Push.move_step _ _ _).payload? hpay
    obtain ⟨hinside, hfractions⟩ := ih hnext hkept hasked
    refine ⟨⟨fun call hcall => ?_, hinside⟩, ?_⟩
    · rw [hcalled] at hcall
      rw [← Option.some.inj hcall, allows, hi, Option.all_some, if_pos rfl, hs]
      rfl
    · have hfirst : c.fractions i [.to i (.sent r.sent r.total)] =
          [Coordinator.fraction r.sent r.total] := by
        simp [fractions, Crowd.calls, hcalled, SinkCall.own]
      have hsplit : heard i (r :: reports) =
          [.to i (.sent r.sent r.total)] ++ heard i reports := rfl
      rw [hsplit, fractions_append, hfirst]
      exact congrArg _ hfractions

/-- A push that has told nothing of its payload hears all that is reported while it is sent. -/
lemma heardAll_sending (hi : (empty.run os).push? i = some p) (hinside : empty.CalledInside i os)
    (hnone : empty.fractions i os = []) (hs : p.stage = .uploading payload)
    (reports : List SendingProgress) (answer : CommitAnswer) :
    HeardAll (os ++ (Push.sending reports answer).map (.to i)) i reports := by
  obtain ⟨hheard, hfractions⟩ := calls_heard hi hs (payload?_of_uploading hi hs) reports
  obtain ⟨hsilent, hrest⟩ :=
    silent_closing ((empty.run os).run (heard i reports)) i answer reports.length
  rw [map_to_sending]
  refine ⟨?_, ?_⟩
  · rw [calledInside_append, calledInside_append]
    exact ⟨hinside, hheard, hsilent⟩
  · rw [fractions_append, fractions_append, hnone, hfractions, hrest, List.append_nil]
    rfl

/-- A push that has told nothing of its payload is over when the payload has been sent with these
reports and the answer has come, and what was reported has been told. -/
lemma delivered_sending (hi : (empty.run os).push? i = some p) (hinside : empty.CalledInside i os)
    (hnone : empty.fractions i os = []) (hs : p.stage = .uploading payload)
    (ht : t.Whole disk files) (answer : CommitAnswer) :
    let q := (Push.steps (empty.run os).coordinator p (Push.sending t.calls answer)).2
    ∃ r, q.stage = .ended r ∧ DeliveredAll q (volume disk files) r := by
  have hheard := heardAll_sending hi hinside hnone hs t.calls answer
  have hafter := run_to hi (Push.sending t.calls answer)
  have hrun : (empty.run os).run ((Push.sending t.calls answer).map (.to i)) =
      empty.run (os ++ (Push.sending t.calls answer).map (.to i)) := by
    simp [run]
  rw [hrun] at hafter
  -- nothing was taken down before, so there is nothing in the queue
  have hqueue : p.queue = [] := by
    have hreports := ((recordedAt_run hinside).recorded p hi).reports
    rw [hnone] at hreports
    exact (List.append_eq_nil_iff.1 hreports).2
  obtain ⟨r, hr⟩ := Push.ended_sending hs hqueue t.calls answer
  have hpay : (Push.steps (empty.run os).coordinator p
      (Push.sending t.calls answer)).2.payload?.isSome :=
    Push.payload?_steps (payload?_of_uploading hi hs)
  exact ⟨r, hr, hheard.deliveredAll ht (delivered_of_ended hheard.inside hafter hr hpay)⟩

end Crowd

/-! ### The main result -/

namespace Client

open Attempt Crowd

/-- What comes of a payload that is sent with this request, when its files hold this. -/
structure Accounts (c : Client) (p : Payload) (w : World) (disk : Path → Bytes) (r : Http.Request)
    (t : Transmission) : Prop where
  /-- Each file of the payload is sent, in the order of the parts. -/
  paths : r.body.paths = p.files
  /-- The request is made once, and what its streams report is what the client reports. -/
  commit : ∃ answer, (c.commit p).exec w =
    (.ok (t.calls, answer), { w with requests := w.requests ++ [(r, w.delivery r)] })
  /-- The streams end if there are reads enough, whatever numbers of bytes these return. -/
  ends : ∀ sizes, (w.network w.requests.length r).files? = some sizes →
    volume disk p.files + p.files.length ≤ sizes.length → t.streams = []
  /-- When they have ended, the chunks are the files and the reports count them. -/
  whole : t.streams = [] → t.Whole disk p.files
  /-- A push that hears these reports has told at its end that everything was sent. -/
  ended : t.streams = [] → ∀ os i q result, (empty.run os).push? i = some q →
    HeardAll os i t.calls → q.stage = .ended result → q.payload?.isSome →
    DeliveredAll q (volume disk p.files) result
  /-- It is over when the answer has come, whatever it is, and what is left has been told. -/
  closed : t.streams = [] → ∀ os i q payload answer, (empty.run os).push? i = some q →
    HeardAll os i t.calls → q.stage = .uploading payload →
    ∃ q' result, (empty.run (os ++ Occurrence.closing i answer q.queue.length)).push? i = some q' ∧
      q'.stage = .ended result ∧ DeliveredAll q' (volume disk p.files) result
  /-- So does a push that commits the payload with this client. -/
  pushed : t.streams = [] → ∀ watch, (∀ e, Succeeds (watch e)) → ∀ os i q,
    (empty.run os).push? i = some q → empty.CalledInside i os → empty.fractions i os = [] →
    q.stage = .uploading p →
    ∃ s w' result, (Push.runCommit watch c ((empty.run os).coordinator, q)).exec w = (.ok s, w') ∧
      s.2.stage = .ended result ∧ DeliveredAll s.2 (volume disk p.files) result

/-- If the files of a payload are there and keep their contents, each of them is sent to its end and
all bytes are accounted for, unless the request is not sent at all.  If one of them cannot be looked
at, nothing is sent. -/
theorem commit_accounts (c : Client) (p : Payload) (w : World) :
    (∀ disk : Path → Bytes, (∀ f ∈ p.files, w.files.read w.here f = .ok (disk f)) →
      volume disk p.files < UInt64.size →
        (∀ s, c.session = some s → isSendable (c.commitRequest s p disk) = true →
          Accounts c p w disk (c.commitRequest s p disk)
            (w.transmission (volume disk p.files) (c.commitRequest s p disk))) ∧
        ((∀ s, c.session = some s → isSendable (c.commitRequest s p disk) = false) →
          ∃ e, (c.commit p).exec w = (.ok ([], .error e), w))) ∧
    ((∃ f ∈ p.files, ∃ fault, w.files.size w.here f = .error fault) →
      ∃ fault, (c.commit p).exec w = (.ok ([], .error (.io (.system fault))), w)) := by
  refine ⟨fun disk hread hbound => ⟨fun s hs hr => ?_, exec_commit_unsent hread⟩,
    exec_commit_error⟩
  have hpaths : (c.commitRequest s p disk).body.paths = p.files := paths_form p _
  obtain ⟨hends, hwhole⟩ := transmission_whole (hpaths ▸ hread) (hpaths ▸ hbound)
  rw [hpaths] at hends hwhole
  refine ⟨hpaths, exec_commit hread hs hr, hends, hwhole, ?_, ?_, ?_⟩
  · intro hend os i q result hq hheard hresult hpay
    exact hheard.deliveredAll (hwhole hend) (delivered_of_ended hheard.inside hq hresult hpay)
  · intro hend os i q payload answer hq hheard hstage
    obtain ⟨q', result, hq', hresult, hall⟩ := delivered_closing hheard.inside hq hstage answer
    exact ⟨q', result, hq', hresult, hheard.deliveredAll (hwhole hend) hall⟩
  · intro hend watch hwatch os i q hq hinside hnone hstage
    obtain ⟨answer, hrun⟩ := exec_commit hread hs hr
    obtain ⟨result, hresult, hall⟩ :=
      delivered_sending hq hinside hnone hstage (hwhole hend) answer
    have hattend : Succeeds (Push.attend watch ((empty.run os).coordinator, q)
        (Push.sending (w.transmission (volume disk p.files) (c.commitRequest s p disk)).calls
          answer)) :=
      (succeeds_forM fun e _ => hwatch e).bind fun _ => succeeds_pure _
    obtain ⟨after, w', hafter⟩ := hattend _
    have hsteps := Push.gives_attend watch _ _ _ _ _ hafter
    refine ⟨after, w', result, ?_, hsteps ▸ hresult, hsteps ▸ hall⟩
    rw [Push.runCommit]
    simp only [hstage]
    rw [exec_bind_ok hrun]
    exact hafter

/-- Two packages with the same file and the same signature. -/
def twinArea : StagingArea :=
  let core : SectionAddress := ⟨"stable", "core", "x86_64"⟩
  let upload (name : String) : Upload :=
    ⟨name, core, some ⟨.ofString "/f"⟩, some ⟨.ofString "/s"⟩⟩
  ⟨[⟨⟨"stable/core/x86_64"⟩, .ofPatch (.add (.ofList [("a", upload "a"), ("b", upload "b")]))⟩]⟩

/-- What the file and the signature hold. -/
def twinDisk (path : Path) : Bytes := if path = .ofString "/f" then [1, 2, 3, 4, 5] else []

/-- A world with these files, in which all streams end after eight reads and the reply breaks
off. -/
def twinWorld : World :=
  { World.empty with
    files := (FileTree.empty.withFile [[0x66]] [1, 2, 3, 4, 5]).withFile [[0x73]] []
    network := fun _ _ => .answered [2, 9, 1, 1, 4, 4, 1, 1] ⟨200, none⟩ }

/-- A session. -/
def twinSession : Session := ⟨"", "", none, ⟨0, 0⟩⟩

/-- A client with this session. -/
def twinClient : Client :=
  ⟨⟨"http".toList, some ⟨[], [], .domain "localhost".toList, none⟩, .segments [[]], none, none⟩,
    some twinSession⟩

/-- A push of the two packages up to its commit. -/
def twinPush : List Occurrence := .start twinArea :: Occurrence.opening 0 (.ok ())

/-- The file is counted once for each package, and the signatures are not reported.  Without the
files nothing is sent. -/
theorem commit_accounts_twins :
    ∃ p q, Payload.encode twinArea = .ok p ∧ (empty.run twinPush).push? 0 = some q ∧
      let r := twinClient.commitRequest twinSession p twinDisk
      let t := twinWorld.transmission (volume twinDisk p.files) r
      ((∀ f ∈ p.files, twinWorld.files.read twinWorld.here f = .ok (twinDisk f)) ∧
        volume twinDisk p.files < UInt64.size ∧ twinClient.session = some twinSession ∧
        isSendable r = true ∧ t.streams = [] ∧
        t.calls = [⟨2, 10⟩, ⟨5, 10⟩, ⟨9, 10⟩, ⟨10, 10⟩] ∧
        empty.CalledInside 0 twinPush ∧ empty.fractions 0 twinPush = [] ∧
        q.stage = .uploading p ∧
        ∃ s w' result, (Push.runCommit (fun _ => pure ()) twinClient
            ((empty.run twinPush).coordinator, q)).exec twinWorld = (.ok s, w') ∧
          s.2.stage = .ended result ∧ DeliveredAll s.2 (volume twinDisk p.files) result) ∧
      (∃ f ∈ p.files, ∃ fault, World.empty.files.size World.empty.here f = .error fault) ∧
      ∃ fault, (twinClient.commit p).exec World.empty =
        (.ok ([], .error (.io (.system fault))), World.empty) := by
  obtain ⟨p, hp⟩ : ∃ p, Payload.encode twinArea = .ok p := ⟨_, rfl⟩
  obtain ⟨q, hq⟩ : ∃ q, (empty.run twinPush).push? 0 = some q := ⟨_, rfl⟩
  refine ⟨p, q, hp, hq, ?_⟩
  intro r t
  have hread : ∀ f ∈ p.files, twinWorld.files.read twinWorld.here f = .ok (twinDisk f) := by
    cases hp
    decide +kernel
  have hbound : volume twinDisk p.files < UInt64.size := by
    cases hp
    decide +kernel
  have hsendable : isSendable r = true := by
    cases hp
    decide +kernel
  have hend : t.streams = [] := by
    cases hp
    decide +kernel
  have hcalls : t.calls = [⟨2, 10⟩, ⟨5, 10⟩, ⟨9, 10⟩, ⟨10, 10⟩] := by
    cases hp
    decide +kernel
  have hinside : empty.CalledInside 0 twinPush := by decide +kernel
  have hnone : empty.fractions 0 twinPush = [] := by decide +kernel
  have hstage : q.stage = .uploading p := by
    cases hp
    cases hq
    rfl
  have hmissing : ∃ f ∈ p.files, ∃ fault,
      World.empty.files.size World.empty.here f = .error fault := by
    cases hp
    exact ⟨_, .head _, .noSuchEntry, by decide +kernel⟩
  have haccounts : Accounts twinClient p twinWorld twinDisk r t :=
    ((commit_accounts twinClient p twinWorld).1 twinDisk hread hbound).1 _ rfl hsendable
  exact ⟨⟨hread, hbound, rfl, hsendable, hend, hcalls, hinside, hnone, hstage,
    haccounts.pushed hend _ (fun _ => succeeds_pure _) _ _ _ hq hinside hnone hstage⟩, hmissing,
    (commit_accounts twinClient p World.empty).2 hmissing⟩

end Client

end PackageStaging
