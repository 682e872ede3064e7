/-
# Asking the server

What the client and a push ask of the system is said once, for any kind of calls that holds those
(`Client.asks_sections` and so on, `Push.asks_runRefresh`).  Among the calls that send something only
a commit sends files, so no file is changed whatever the server is asked and whatever it answers.  A
connection keeps its session in the state directory, which leaves the staging area that is held
there.
-/
import PackageStaging.Proofs.State.Holding
import PackageStaging.Push.Submission

namespace PackageStaging

open Attempt

variable {P : World → Prop} {C : Call → Prop}

namespace Client

lemma asks_deliver {r : Http.Request} (hr : C (.send r)) : (deliver r).Asks C := by
  unfold deliver
  split_ifs
  · exact asks_pure _
  · exact asks_pure _
  · refine (asks_ask hr).bind fun d => ?_
    split
    · exact asks_pure _
    · exact asks_pure _

lemma asks_fetch {r : Http.Request} (hr : C (.send r)) : (fetch r).Asks C :=
  (asks_deliver hr).bind fun _ => asks_ofExcept _

lemma asks_requireToken (c : Client) : c.requireToken.Asks C := by
  unfold requireToken
  split
  · exact asks_pure _
  · exact asks_fail _

lemma asks_sizesOf {ps : List Path} (hsize : ∀ p ∈ ps, C (.size p)) : (sizesOf ps).Asks C := by
  induction ps with
  | nil => exact asks_pure []
  | cons p ps ih =>
    refine (asks_ask (hsize p (.head _))).bind fun r => (asks_ofExcept _).bind fun size => ?_
    exact (ih fun q hq => hsize q (.tail _ hq)).bind fun rest => asks_pure _

/-- The files of a form are those of the payload. -/
lemma paths_formOf (p : Payload) (sizes : List Nat) :
    (formOf p sizes).paths = p.artifacts.map Artifact.path := by
  rw [formOf, Http.Body.paths, Payload.artifacts, List.filterMap_map, List.map_filterMap]
  refine congrArg (fun g => p.parts.filterMap g) (funext fun part => ?_)
  cases part with
  | file field a => rfl
  | text field value => rfl

lemma asks_measure {p : Payload} (hsize : ∀ a ∈ p.artifacts, C (.size a.path)) :
    (measure p).Asks C := by
  have hsizes : ∀ q ∈ p.artifacts.map Artifact.path, C (.size q) := List.forall_mem_map.2 hsize
  refine (asks_sizesOf hsizes).bind fun all => (asks_sizesOf ?_).bind fun sizes => asks_pure _
  rwa [paths_formOf]

lemma asks_commit {p : Payload} (hsize : ∀ a ∈ p.artifacts, C (.size a.path))
    (hsend : ∀ r : Http.Request, r.body.paths = p.artifacts.map Artifact.path → C (.send r))
    (c : Client) : (c.commit p).Asks C := by
  refine (asks_measure hsize).outcome.bind fun measured => ?_
  split
  · exact asks_pure _
  · split
    · exact asks_pure _
    · exact (asks_deliver (hsend _ (paths_formOf p _))).bind fun _ => asks_pure _

section Requests

variable (hsend : ∀ r : Http.Request, r.body.paths = [] → C (.send r)) (c : Client)

include hsend

lemma asks_login (hnow : C .now) (name password : String) : (c.login name password).Asks C := by
  refine (asks_fetch (hsend _ rfl)).bind fun reply => (asks_ofExcept _).bind fun tokens => ?_
  exact (asks_ask hnow).bind fun now => asks_pure _

lemma asks_logout : c.logout.Asks C :=
  c.asks_requireToken.bind fun _ => (asks_fetch (hsend _ rfl)).bind fun _ => asks_pure _

lemma asks_refresh (hnow : C .now) : c.refresh.Asks C := by
  unfold refresh
  split
  · exact asks_fail _
  · refine (asks_fetch (hsend _ rfl)).bind fun reply => (asks_ofExcept _).bind fun body => ?_
    split
    · exact asks_pure _
    · exact (asks_ask hnow).bind fun now => asks_pure _

lemma asks_sections : c.sections.Asks C :=
  c.asks_requireToken.bind fun _ => (asks_fetch (hsend _ rfl)).bind fun _ => asks_ofExcept _

lemma asks_sync : c.sync.Asks C :=
  c.asks_requireToken.bind fun _ => (asks_fetch (hsend _ rfl)).bind fun _ => asks_pure _

lemma asks_snap (what : SnapRequest) : (c.snap what).Asks C :=
  c.asks_requireToken.bind fun _ => (asks_fetch (hsend _ rfl)).bind fun _ => asks_pure _

end Requests

/-! ### Files -/

section Files

variable (hP : OfFiles P) (c : Client)

include hP

lemma leaves_login (name password : String) : Leaves P (c.login name password) :=
  (asks_login (fun _ _ => rfl) c (by rfl) name password).leaves_files hP

lemma leaves_logout : Leaves P c.logout := (asks_logout (fun _ _ => rfl) c).leaves_files hP

lemma leaves_sections : Leaves P c.sections := (asks_sections (fun _ _ => rfl) c).leaves_files hP

lemma leaves_sync : Leaves P c.sync := (asks_sync (fun _ _ => rfl) c).leaves_files hP

lemma leaves_snap (what : SnapRequest) : Leaves P (c.snap what) :=
  (asks_snap (fun _ _ => rfl) c what).leaves_files hP

end Files

end Client

namespace Connection

lemma leaves_opened (hP : OfFiles P) (c : Config) (d : StateDirectory) : Leaves P (opened c d) :=
  (StateDirectory.leaves_authenticate hP d).bind fun _ => leaves_pure _

lemma leaves_keepSession {root : Path} {dir : Route} {content : Option Bytes} (c : Connection) :
    Leaves (StateDirectory.Holding root dir content) (c.keepSession ⟨root⟩) := by
  unfold keepSession
  split
  · exact StateDirectory.leaves_saveSession _
  · exact leaves_pure ()

end Connection

namespace Push

variable {watch : Event → Attempt Unit}

section Asking

variable (hwatch : ∀ e, (watch e).Asks C)

include hwatch

lemma asks_attend (s : Coordinator × Push) (hs : List Happening) : (attend watch s hs).Asks C :=
  (asks_forM fun e _ => hwatch e).bind fun _ => asks_pure _

lemma asks_runRefresh (hsend : ∀ r : Http.Request, r.body.paths = [] → C (.send r))
    (hnow : C .now) (c : Client) (s : Coordinator × Push) : (runRefresh watch c s).Asks C := by
  have hrefreshed : (refreshed c).Asks C := by
    refine (c.asks_refresh hsend hnow).outcome.bind fun r => ?_
    split
    · exact asks_pure _
    · exact asks_pure _
  unfold runRefresh
  split
  · exact hrefreshed.bind fun r => (asks_attend hwatch s _).bind fun _ => asks_pure _
  · exact asks_pure _

lemma asks_runCommit {c : Client} {s : Coordinator × Push}
    (hcommit : ∀ payload, s.2.stage = .uploading payload → (c.commit payload).Asks C) :
    (runCommit watch c s).Asks C := by
  unfold runCommit
  split
  · next payload hstage =>
    exact (hcommit payload hstage).bind fun r => asks_attend hwatch s _
  · exact asks_pure _

end Asking

/-- A push changes no file, if what is shown of it changes none. -/
lemma leaves_run (hP : OfFiles P) (hwatch : ∀ e, (watch e).Asks fun c => c.changesFiles = false)
    (c : Client) (a : StagingArea) : Leaves P (run watch c a) := by
  refine Asks.leaves_files (t := run watch c a) ?_ hP
  refine (asks_forM fun e _ => hwatch e).bind fun _ => (asks_attend hwatch _ _).bind fun s => ?_
  refine (asks_runRefresh hwatch (fun _ _ => rfl) rfl c s).bind fun r => ?_
  refine (asks_runCommit hwatch fun payload _ => ?_).bind fun _ => asks_pure _
  exact Client.asks_commit (fun _ _ => rfl) (fun _ _ => rfl) r.1

end Push

end PackageStaging
