/-
# Which tokens are presented

The server hands out tokens in its replies to refreshes.  `Session.presented` is the token that a
request has to present, given everything that was exchanged before it, and `UpToDate` says of a
world that all its requests did so, and that a session holds the tokens that are due next.  Only a
refresh takes the session any further (`UpToDate.renewed`).
-/
import Mathlib.Data.List.Basic
import PackageStaging.Client
import PackageStaging.Proofs.Running
import PackageStaging.Proofs.Timestamp.Reading
import PackageStaging.StateDirectory

namespace PackageStaging

/-- A request and what became of it. -/
abbrev Exchange := Http.Request × Http.Delivery

/-- Whether new tokens are asked for. -/
def Http.Request.isRefresh (r : Http.Request) : Bool :=
  r.method = .get && match r.url.path with
    | .segments ss => (Client.endpoint ["auth", "refresh"]).isSuffixOf ss
    | .unstructured _ => false

/-- The tokens that are handed out, if a refresh was carried out and its reply has some. -/
def Exchange.tokens? (e : Exchange) : Option Tokens := do
  guard e.1.isRefresh
  let reply ← e.2.reply?
  let _ ← (Client.check reply).toOption
  let body ← reply.body
  (Json.decode Wire.readTokens (Utf8.sourceOfString (Utf8.lossy body))).toOption

namespace Session

/-- The tokens that were handed out, in order. -/
def handedOut (log : List Exchange) : List Tokens := log.filterMap Exchange.tokens?

/-- The access token that was received last, by the session or in an exchange. -/
def latestAccess (s : Session) (log : List Exchange) : String :=
  ((handedOut log).map Tokens.accessToken).getLast?.getD s.accessToken

/-- The refresh token that was handed out last, by the session or in an exchange. -/
def latestRefresh (s : Session) (log : List Exchange) : Option String :=
  ((handedOut log).filterMap Tokens.refreshToken).getLast?.or s.refreshToken

/-- The token that a request has to present after these exchanges: the latest access token, or for
a refresh the last refresh token, if there ever was one. -/
def presented (s : Session) (log : List Exchange) (r : Http.Request) : String :=
  if r.isRefresh then (s.latestRefresh log).getD (s.latestAccess log) else s.latestAccess log

/-- Every request presents the token that it has to. -/
def Presents (s : Session) (log : List Exchange) : Prop :=
  ∀ before r d after, log = before ++ (r, d) :: after → r.token = some (s.presented before r)

variable {s t : Session} {log : List Exchange} {e : Exchange} {tokens : Tokens}

lemma presents_nil (s : Session) : s.Presents [] := fun before r d after h => by
  simp at h

lemma Presents.concat (h : s.Presents log) (he : e.1.token = some (s.presented log e.1)) :
    s.Presents (log ++ [e]) := by
  intro before r d after hsplit
  rcases List.eq_nil_or_concat after with rfl | ⟨after', last, rfl⟩
  · obtain ⟨rfl, hlast⟩ := List.append_inj' hsplit rfl
    obtain rfl := List.singleton_inj.1 hlast
    exact he
  · -- the request is one of those before
    rw [List.concat_eq_append, ← List.cons_append, ← List.append_assoc] at hsplit
    exact h before r d after' (List.append_inj' hsplit rfl).1

lemma handedOut_concat (log : List Exchange) (e : Exchange) :
    handedOut (log ++ [e]) = handedOut log ++ e.tokens?.toList := by
  rw [handedOut, List.filterMap_append, handedOut]
  cases h : e.tokens? with
  | none => simp [h]
  | some x => simp [h]

lemma handedOut_of_none (h : e.tokens? = none) : handedOut (log ++ [e]) = handedOut log := by
  rw [handedOut_concat, h, Option.toList_none, List.append_nil]

lemma latestAccess_of_some (h : e.tokens? = some tokens) (s : Session) :
    s.latestAccess (log ++ [e]) = tokens.accessToken := by
  rw [latestAccess, handedOut_concat, h]
  simp

lemma latestRefresh_of_some (h : e.tokens? = some tokens) (s : Session) :
    s.latestRefresh (log ++ [e]) = tokens.refreshToken.or (s.latestRefresh log) := by
  rw [latestRefresh, latestRefresh, handedOut_concat, h]
  cases hrefresh : tokens.refreshToken with
  | none => simp [hrefresh]
  | some x => simp [hrefresh]

end Session

open Session

/-- Since these requests every request has presented the token that it had to, if the session was
`s` at the beginning; the session `t` holds the tokens that are due next, and no others are given
in the environment. -/
structure UpToDate (past : List Exchange) (s t : Session) (w : World) : Prop where
  log : ∃ log, w.requests = past ++ log ∧ s.Presents log ∧ t.accessToken = s.latestAccess log ∧
    t.refreshToken = s.latestRefresh log
  issued : t.issuedAt.Supported
  clock : w.clock.Supported
  unset : ∀ x, w.environment.get? StateDirectory.tokenVariable = some x → Text.trim x = ""

namespace UpToDate

open Attempt

variable {past : List Exchange} {s t : Session} {w w' : World} {r : Http.Request}
  {d : Http.Delivery} {tokens : Tokens}

lemma congr (h : UpToDate past s t w) (hrequests : w'.requests = w.requests)
    (hclock : w'.clock = w.clock) (henvironment : w'.environment = w.environment) :
    UpToDate past s t w' where
  log := by rw [hrequests]; exact h.log
  issued := h.issued
  clock := by rw [hclock]; exact h.clock
  unset := by rw [henvironment]; exact h.unset

/-- The token that the session has for a request. -/
def tokenFor (t : Session) (r : Http.Request) : String :=
  if r.isRefresh then t.refreshCredential else t.accessToken

lemma presents (h : UpToDate past s t w) (hr : r.token = some (tokenFor t r)) (d : Http.Delivery) :
    ∃ log, w.requests ++ [(r, d)] = past ++ (log ++ [(r, d)]) ∧ s.Presents (log ++ [(r, d)]) ∧
      t.accessToken = s.latestAccess log ∧ t.refreshToken = s.latestRefresh log := by
  obtain ⟨log, hrequests, hpresents, haccess, hrefresh⟩ := h.log
  refine ⟨log, by rw [hrequests, List.append_assoc], hpresents.concat ?_, haccess, hrefresh⟩
  rw [hr, tokenFor, presented, refreshCredential, haccess, hrefresh]

/-- A request that hands out nothing leaves the session as it is. -/
lemma sent (h : UpToDate past s t w) (hr : r.token = some (tokenFor t r))
    (hd : Exchange.tokens? (r, d) = none) :
    UpToDate past s t { w with requests := w.requests ++ [(r, d)] } where
  log := by
    obtain ⟨log, hrequests, hpresents, haccess, hrefresh⟩ := h.presents hr d
    refine ⟨_, hrequests, hpresents, ?_, ?_⟩
    · rw [latestAccess, handedOut_of_none hd]
      exact haccess
    · rw [latestRefresh, handedOut_of_none hd]
      exact hrefresh
  issued := h.issued
  clock := h.clock
  unset := h.unset

/-- A request that hands out tokens renews the session. -/
lemma renewed (h : UpToDate past s t w) (hr : r.token = some (tokenFor t r))
    (hd : Exchange.tokens? (r, d) = some tokens) :
    UpToDate past s (t.renew tokens w.clock)
      { w with requests := w.requests ++ [(r, d)] } where
  log := by
    obtain ⟨log, hrequests, hpresents, -, hrefresh⟩ := h.presents hr d
    refine ⟨_, hrequests, hpresents, ?_, ?_⟩
    · rw [latestAccess_of_some hd]
      rfl
    · rw [latestRefresh_of_some hd, ← hrefresh]
      rfl
  issued := h.clock
  clock := h.clock
  unset := h.unset

end UpToDate

/-- The calls that send nothing. -/
def Call.IsQuiet : Call → Prop
  | .send _ => False
  | _ => True

lemma World.answer_of_isQuiet {c : Call} (hc : c.IsQuiet) (w : World) :
    (w.answer c).2.requests = w.requests ∧ (w.answer c).2.clock = w.clock ∧
      (w.answer c).2.environment = w.environment := by
  have hchange : ∀ r, (w.change r).2.requests = w.requests ∧
      (w.change r).2.clock = w.clock ∧ (w.change r).2.environment = w.environment := by
    intro r
    cases r with
    | ok files => exact ⟨rfl, rfl, rfl⟩
    | error f => exact ⟨rfl, rfl, rfl⟩
  cases c with
  | writeFile p content => exact hchange _
  | replaceFile source target => exact hchange _
  | removeFile p => exact hchange _
  | makeDirectory p => exact hchange _
  | print channel text =>
    cases channel with
    | standard => exact ⟨rfl, rfl, rfl⟩
    | diagnostic => exact ⟨rfl, rfl, rfl⟩
  | send r => exact hc.elim
  | _ => exact ⟨rfl, rfl, rfl⟩

/-- What sends nothing leaves the session up to date. -/
lemma leaves_upToDate {α : Type} {past : List Exchange} {s t : Session} {act : Attempt α}
    (hact : act.Asks Call.IsQuiet) : act.Leaves (UpToDate past s t) :=
  hact.leaves fun _ hc w h =>
    have hsame := w.answer_of_isQuiet hc
    h.congr hsame.1 hsame.2.1 hsame.2.2

end PackageStaging
