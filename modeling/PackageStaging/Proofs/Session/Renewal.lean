/-
# Sessions in use

A client whose session is up to date presents the right token with every request, whatever the
server answers.  Its session changes with nothing but a refresh, and is up to date again after that,
however the push goes on (`leads_run`).
-/
import PackageStaging.Proofs.Outcome
import PackageStaging.Proofs.Push.Submission
import PackageStaging.Proofs.Session.Tokens
import PackageStaging.Proofs.State.Asking
import PackageStaging.Proofs.Url.Relative

namespace PackageStaging

open Attempt

variable {past : List Exchange} {s t : Session} {c : Client} {r : Http.Request} {w : World}

lemma Exchange.tokens?_of_not_isRefresh {e : Exchange} (h : e.1.isRefresh = false) :
    e.tokens? = none := by
  simp [Exchange.tokens?, h, guard]

namespace Client

/-! ### Kinds of requests -/

lemma path_request (hbase : c.server.isBase = true) (method : Http.Method) (names : List String)
    (hnames : ∀ s ∈ endpoint names, Url.IsName s) (token : Option String) (body : Http.Body) :
    ∃ ss, (c.request method names token body).url.path = .segments (ss ++ endpoint names) := by
  cases hpath : c.server.path with
  | unstructured text =>
    rw [Url.isBase, hpath] at hbase
    exact nomatch hbase
  | segments ss =>
    have hne : endpoint names ≠ [] := List.cons_ne_nil _ _
    obtain ⟨front, hjoin, -⟩ := Url.join_joined hpath hne hnames
    refine ⟨front, ?_⟩
    rw [request, url, reference, hjoin]
    exact Url.path_requested _

lemma isRefresh_refresh (hbase : c.server.isBase = true) (token : Option String) :
    (c.request .get ["auth", "refresh"] token .empty).isRefresh = true := by
  obtain ⟨ss, hss⟩ := path_request hbase .get ["auth", "refresh"] (by decide) token .empty
  have hmethod : (c.request .get ["auth", "refresh"] token .empty).method = .get := rfl
  simp [Http.Request.isRefresh, hss, hmethod]

lemma isRefresh_sections (hbase : c.server.isBase = true) (token : Option String) :
    (c.request .get ["sections"] token .empty).isRefresh = false := by
  obtain ⟨ss, hss⟩ := path_request hbase .get ["sections"] (by decide) token .empty
  have hnot : ¬ endpoint ["auth", "refresh"] <:+ ss ++ endpoint ["sections"] := by
    rintro ⟨front, hfront⟩
    have hlast := congrArg List.getLast? hfront
    simp [endpoint] at hlast
  rw [Http.Request.isRefresh, hss, Bool.and_eq_false_iff]
  right
  rw [← Bool.not_eq_true, List.isSuffixOf_iff_suffix]
  exact hnot

/-! ### Sending -/

/-- A request is not sent at all, or is sent and has the reply that came back. -/
lemma exec_deliver_cases (r : Http.Request) (w : World) :
    (∃ e, (deliver r).exec w = (.ok ([], .error e), w)) ∨
      ∃ d result, (deliver r).exec w =
        (.ok (d.reads, result), { w with requests := w.requests ++ [(r, d)] }) ∧
        ∀ reply, result = .ok reply ↔ d.reply? = some reply := by
  unfold deliver
  split_ifs
  · exact .inl ⟨_, rfl⟩
  · exact .inl ⟨_, rfl⟩
  · have hsend : w.answer (.send r) =
      (w.delivery r, { w with requests := w.requests ++ [(r, w.delivery r)] }) := rfl
    rw [exec_ask_bind, hsend]
    refine .inr ⟨w.delivery r, ?_⟩
    cases hreply : (w.delivery r).reply? with
    | some reply => exact ⟨_, rfl, fun reply' => by rw [Except.ok.injEq, Option.some.injEq]⟩
    | none => exact ⟨_, rfl, fun reply' => by simp⟩

lemma check_eq_ok {reply reply' : Http.Reply} (h : check reply = .ok reply') : reply' = reply := by
  rw [check] at h
  split_ifs at h
  exact (Except.ok.inj h).symm

/-- A request that is sent has failed, or its reply says that it was carried out. -/
lemma exec_fetch_cases (r : Http.Request) (w : World) :
    (∃ e, (fetch r).exec w = (.error e, w)) ∨
      ∃ d, (∃ e, (fetch r).exec w = (.error e, { w with requests := w.requests ++ [(r, d)] }) ∧
          ∀ reply, d.reply? = some reply → check reply = .error e) ∨
        ∃ reply, (fetch r).exec w = (.ok reply, { w with requests := w.requests ++ [(r, d)] }) ∧
          d.reply? = some reply ∧ check reply = .ok reply := by
  rcases exec_deliver_cases r w with ⟨e, hrun⟩ | ⟨d, result, hrun, hreply⟩
  · left
    rw [fetch, exec_bind_ok hrun]
    exact ⟨e, rfl⟩
  · right
    refine ⟨d, ?_⟩
    rw [fetch, exec_bind_ok hrun]
    cases result with
    | error e =>
      refine .inl ⟨e, rfl, fun reply hsome => ?_⟩
      exact nomatch (hreply reply).2 hsome
    | ok reply =>
      have hsome := (hreply reply).1 rfl
      cases hcheck : check reply with
      | error e =>
        refine .inl ⟨e, by simp only [bind, Except.bind, hcheck, exec_ofExcept], ?_⟩
        intro reply' hsome'
        rw [hsome] at hsome'
        obtain rfl := Option.some.inj hsome'
        exact hcheck
      | ok reply' =>
        obtain rfl := check_eq_ok hcheck
        exact .inr ⟨reply', by simp only [bind, Except.bind, hcheck, exec_ofExcept], hsome, hcheck⟩

/-- A request for anything but new tokens leaves the session up to date. -/
lemma upToDate_deliver (hr : r.isRefresh = false) (htoken : r.token = some t.accessToken) :
    Leaves (UpToDate past s t) (deliver r) := by
  intro w hw
  rcases exec_deliver_cases r w with ⟨e, hrun⟩ | ⟨d, result, hrun, -⟩
  · rw [hrun]
    exact hw
  · rw [hrun]
    refine hw.sent ?_ (Exchange.tokens?_of_not_isRefresh hr)
    rw [htoken, UpToDate.tokenFor, hr]
    rfl

lemma upToDate_fetch (hr : r.isRefresh = false) (htoken : r.token = some t.accessToken) :
    Leaves (UpToDate past s t) (fetch r) :=
  (upToDate_deliver hr htoken).bind fun _ => leaves_ofExcept _

lemma requireToken_eq (hsession : c.session = some t) : c.requireToken = pure t.accessToken := by
  rw [requireToken, hsession]

lemma upToDate_sections (hsession : c.session = some t) (hbase : c.server.isBase = true) :
    Leaves (UpToDate past s t) c.sections := by
  rw [sections, requireToken_eq hsession, pure_bind]
  exact (upToDate_fetch (isRefresh_sections hbase _) rfl).bind fun _ => leaves_ofExcept _

lemma upToDate_sync (hsession : c.session = some t) : Leaves (UpToDate past s t) c.sync := by
  rw [sync, requireToken_eq hsession, pure_bind]
  exact (upToDate_fetch rfl rfl).bind fun _ => leaves_pure _

lemma upToDate_snap (hsession : c.session = some t) (what : SnapRequest) :
    Leaves (UpToDate past s t) (c.snap what) := by
  rw [snap, requireToken_eq hsession, pure_bind]
  exact (upToDate_fetch rfl rfl).bind fun _ => leaves_pure _

lemma upToDate_commit (hsession : c.session = some t) (p : Payload) :
    Leaves (UpToDate past s t) (c.commit p) := by
  refine (leaves_upToDate (asks_measure fun _ _ => trivial).outcome).bind fun measured => ?_
  split
  · exact leaves_pure _
  · rw [hsession]
    exact (upToDate_deliver rfl rfl).bind fun reply => leaves_pure _

/-! ### Refreshing -/

/-- The client has a session that is up to date, with this server. -/
def IsUpToDate (past : List Exchange) (s : Session) (server : Url) (c : Client) (w : World) :
    Prop :=
  ∃ t, c.session = some t ∧ c.server = server ∧ UpToDate past s t w

/-- A refresh that was not carried out hands out nothing. -/
lemma tokens?_of_refused {d : Http.Delivery} {e : Error}
    (h : ∀ reply, d.reply? = some reply → check reply = .error e) :
    Exchange.tokens? (r, d) = none := by
  cases hreply : d.reply? with
  | none => simp [Exchange.tokens?, hreply]
  | some reply => simp [Exchange.tokens?, hreply, h reply hreply, Except.toOption]

lemma tokens?_of_carriedOut {d : Http.Delivery} {reply : Http.Reply} (hr : r.isRefresh = true)
    (hreply : d.reply? = some reply) (hcheck : check reply = .ok reply) :
    Exchange.tokens? (r, d) = reply.body.bind fun body =>
      (Json.decode Wire.readTokens (Utf8.sourceOfString (Utf8.lossy body))).toOption := by
  simp [Exchange.tokens?, hr, hreply, hcheck, Except.toOption, guard]

/-- After a refresh the session is up to date; if it fails, the old one still is. -/
theorem leads_refresh (hsession : c.session = some t) (hbase : c.server.isBase = true) :
    Leads (UpToDate past s t) c.refresh (IsUpToDate past s c.server) (UpToDate past s t) := by
  intro w hw
  rw [refresh, hsession]
  set r := c.request .get ["auth", "refresh"] (some t.refreshCredential) .empty with hr
  have hrefresh : r.isRefresh = true := isRefresh_refresh hbase _
  have htoken : r.token = some (UpToDate.tokenFor t r) := by
    rw [UpToDate.tokenFor, hrefresh]
    rfl
  rcases exec_fetch_cases r w with
    ⟨e, hrun⟩ | ⟨d, ⟨e, hrun, hrefused⟩ | ⟨reply, hrun, hreply, hcheck⟩⟩
  · exact leads_of_error (exec_bind_error hrun) hw
  · exact leads_of_error (exec_bind_error hrun) (hw.sent htoken (tokens?_of_refused hrefused))
  · have htokens := tokens?_of_carriedOut hrefresh hreply hcheck
    rw [exec_bind_ok hrun]
    cases hbody : reply.body with
    | none =>
      rw [hbody] at htokens
      have hcontent : content reply = .error (.http .undecodable) := by rw [content, hbody]
      rw [hcontent]
      exact leads_of_error rfl (hw.sent htoken htokens)
    | some body =>
      rw [hbody, Option.bind_some] at htokens
      have hcontent : content reply = .ok body := by rw [content, hbody]
      rw [hcontent, exec_bind_ok (exec_ofExcept _ _)]
      cases hdecode : Json.decode Wire.readTokens (Utf8.sourceOfString (Utf8.lossy body)) with
      | error f =>
        -- an answer without tokens is no failure
        rw [hdecode] at htokens
        exact leads_of_ok rfl ⟨t, hsession, rfl, hw.sent htoken htokens⟩
      | ok tokens =>
        rw [hdecode] at htokens
        exact leads_of_ok rfl ⟨_, rfl, rfl, hw.renewed htoken htokens⟩

end Client

namespace Push

variable {watch : Event → Attempt Unit} {a : StagingArea} {server : Url}

/-! ### Pushes -/

/-- The client after a refresh is up to date in either case. -/
lemma leads_refreshed (hsession : c.session = some t) (hbase : c.server.isBase = true) :
    Leads (UpToDate past s t) (refreshed c) (fun v => Client.IsUpToDate past s c.server v.1)
      fun _ => True := by
  refine ((Client.leads_refresh hsession hbase).outcome.imp (fun _ h => h) (fun _ _ h => h)
    fun _ _ => trivial).bind fun r => ?_
  split
  · next renewed =>
    refine leads_pure fun w hw => ?_
    rcases hw with ⟨c', hc', hw⟩ | ⟨⟨e, he⟩, -⟩
    · obtain rfl := Except.ok.inj hc'
      exact hw
    · exact nomatch he
  · next e =>
    refine leads_pure fun w hw => ?_
    rcases hw with ⟨c', hc', -⟩ | ⟨-, hw⟩
    · exact nomatch hc'
    · exact ⟨t, hsession, rfl, hw⟩

/-- What leaves every session of the client up to date leaves the client so. -/
lemma leaves_isUpToDate {α : Type} {act : Attempt α}
    (h : ∀ t, c.session = some t → c.server = server → Leaves (UpToDate past s t) act) :
    Leaves (Client.IsUpToDate past s server c) act := by
  rintro w ⟨t, hsession, hserver, hw⟩
  exact ⟨t, hsession, hserver, h t hsession hserver w hw⟩

lemma leads_runRefresh (hwatch : ∀ e, (watch e).Asks Call.IsQuiet) (hsession : c.session = some t)
    (hbase : c.server.isBase = true) (p : Coordinator × Push) :
    Leads (UpToDate past s t) (runRefresh watch c p)
      (fun v => Client.IsUpToDate past s c.server v.1) fun _ => True := by
  unfold runRefresh
  split
  · refine (leads_refreshed hsession hbase).bind fun v => ?_
    have hattend : Leaves (Client.IsUpToDate past s c.server v.1)
        (attend watch p [.refreshed v.2, .told]) :=
      leaves_isUpToDate fun _ _ _ => leaves_upToDate (asks_attend hwatch _ _)
    refine (hattend.leads.imp (fun _ h => h) (fun _ _ h => h) fun _ _ => trivial).bind fun _ => ?_
    exact leads_pure fun _ h => h
  · exact leads_pure fun w hw => ⟨t, hsession, rfl, hw⟩

lemma isUpToDate_runCommit (hwatch : ∀ e, (watch e).Asks Call.IsQuiet) (p : Coordinator × Push) :
    Leaves (Client.IsUpToDate past s server c) (runCommit watch c p) := by
  unfold runCommit
  split
  · refine leaves_isUpToDate fun t hsession _ => ?_
    exact (Client.upToDate_commit hsession _).bind fun v =>
      leaves_upToDate (asks_attend hwatch _ _)
  · exact leaves_pure _

/-- However a push ends, its client has a session that is up to date. -/
theorem leads_run (hwatch : ∀ e, (watch e).Asks Call.IsQuiet) (hsucceeds : ∀ e, Succeeds (watch e))
    (hsession : c.session = some t) (hbase : c.server.isBase = true) (a : StagingArea) :
    Leads (UpToDate past s t) (run watch c a) (fun v => Client.IsUpToDate past s c.server v.1)
      fun _ => False := by
  have hquiet : ∀ {α : Type} {act : Attempt α}, act.Asks Call.IsQuiet →
      Leads (UpToDate past s t) act (fun _ => UpToDate past s t) fun _ => True := fun hact =>
    (leaves_upToDate hact).leads.imp (fun _ h => h) (fun _ _ h => h) fun _ _ => trivial
  refine Leads.of_succeeds (E := fun _ => True) ?_ (succeeds_run hsucceeds c a)
  refine (hquiet (asks_forM fun e _ => hwatch e)).bind fun _ => ?_
  refine (hquiet (asks_attend hwatch _ _)).bind fun p => ?_
  refine (leads_runRefresh hwatch hsession hbase p).bind fun v => ?_
  refine ((isUpToDate_runCommit hwatch v.2).leads.imp (fun _ h => h) (fun _ _ h => h)
    fun _ _ => trivial).bind fun _ => ?_
  exact leads_pure fun _ h => h

end Push

end PackageStaging
