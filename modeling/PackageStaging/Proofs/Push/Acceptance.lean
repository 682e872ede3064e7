/-
# Accepted payloads

A payload is accepted if it was sent and the server answered that the commit is done.  Requests are
never taken back (`Attempt.requests_exec`), so what has been accepted stays accepted; a commit whose
answer is good for the push has been accepted (`Client.ends_commit`).
-/
import Mathlib.Tactic.SplitIfs
import PackageStaging.Client
import PackageStaging.Proofs.Push.Move
import PackageStaging.Proofs.Running

namespace PackageStaging

open Attempt

/-- The payload was sent, and the answer says that the commit is done. -/
def World.Accepted (w : World) (payload : Payload) : Prop :=
  ∃ (c : Client) (token : String) (sizes : List Nat) (d : Http.Delivery) (reply : Http.Reply)
    (response : CommitResponse),
    (c.request .post ["packages", "commit"] token (Client.formOf payload sizes), d)
        ∈ w.requests ∧
      d.reply? = some reply ∧
      (Client.check reply >>= Client.decoded Wire.readCommitResponse) = .ok response ∧
      response.isOk = true

/-- All that was staged in the area has been accepted as one payload. -/
def World.Published (w : World) (a : StagingArea) : Prop :=
  ∃ payload, Payload.encode a = .ok payload ∧ w.Accepted payload

variable {w w' : World}

lemma World.Accepted.mono {payload : Payload} (h : w.Accepted payload)
    (hrequests : w.requests <+: w'.requests) : w'.Accepted payload := by
  obtain ⟨c, token, sizes, d, reply, response, hmem, hanswer⟩ := h
  exact ⟨c, token, sizes, d, reply, response, hrequests.subset hmem, hanswer⟩

lemma World.Published.mono {a : StagingArea} (h : w.Published a)
    (hrequests : w.requests <+: w'.requests) : w'.Published a := by
  obtain ⟨payload, hencode, hw⟩ := h
  exact ⟨payload, hencode, hw.mono hrequests⟩

namespace Client

/-- What becomes of a request is told as a result. -/
lemma succeeds_deliver (r : Http.Request) : Succeeds (deliver r) := by
  unfold deliver
  split_ifs
  · exact succeeds_pure _
  · exact succeeds_pure _
  · refine (succeeds_ask _).bind fun d => ?_
    split
    · exact succeeds_pure _
    · exact succeeds_pure _

lemma succeeds_commit (c : Client) (payload : Payload) : Succeeds (c.commit payload) := by
  refine (succeeds_outcome _).bind fun r => ?_
  split
  · exact succeeds_pure _
  · split
    · exact succeeds_pure _
    · exact (succeeds_deliver _).bind fun _ => succeeds_pure _

/-- A reply belongs to the request that was sent. -/
lemma ends_deliver (r : Http.Request) :
    Ends (fun v w => ∀ reply, v.2 = .ok reply → ∃ d, (r, d) ∈ w.requests ∧ d.reply? = some reply)
      (deliver r) := by
  unfold deliver
  split_ifs
  · exact ends_pure fun _ _ h => nomatch h
  · exact ends_pure fun _ _ h => nomatch h
  · refine (ends_ask _).bind fun d w hd => ?_
    obtain ⟨w0, hd⟩ := hd
    obtain ⟨rfl, rfl⟩ := Prod.mk.inj hd
    have hsent : (r, w0.delivery r) ∈ (w0.answer (.send r)).2.requests :=
      List.mem_append_right _ (.head _)
    split
    · next reply hreply =>
      intro v w' hrun reply' h
      obtain ⟨rfl, rfl⟩ := exec_pure_inj hrun
      obtain rfl := Except.ok.inj h
      exact ⟨_, hsent, hreply⟩
    · exact ends_pure (fun _ _ h => nomatch h) _

/-- A commit whose answer is good has been accepted. -/
lemma ends_commit (c : Client) (payload : Payload) :
    Ends (fun v w => Push.verdict v.2 = .ok () → w.Accepted payload) (c.commit payload) := by
  refine (gives_any _).bind_ends fun r _ => ?_
  split
  · exact ends_pure fun _ h => nomatch h
  · next total sizes =>
    split
    · exact ends_pure fun _ h => nomatch h
    · next session hsession =>
      refine (ends_deliver _).bind fun v w hv v' w' hrun hverdict => ?_
      obtain ⟨rfl, rfl⟩ := exec_pure_inj hrun
      obtain ⟨response, hanswer, hok⟩ := Push.verdict_eq_ok hverdict
      obtain ⟨reads, reply | reply⟩ := v
      · cases hanswer
      · obtain ⟨d, hsent, hreply⟩ := hv reply rfl
        exact ⟨c, session.accessToken, sizes, d, reply, response, hsent, hreply, hanswer, hok⟩

end Client

end PackageStaging
