/-
# The session is read back

What is written for a session is read as the same session if its time is supported
(`decode_session`), and the time of every session that is read is (`decodeSession_eq_ok`).
-/
import PackageStaging.Proofs.Json.Yields
import PackageStaging.Proofs.Timestamp.Reading
import PackageStaging.Proofs.Wire.Staged
import PackageStaging.Wire.Messages

namespace PackageStaging.Wire

open Json (Reads Spells Takes Value Yields reads_nullable_null reads_nullable_some reads_record
  reads_string reads_stringAs takes_member yields_any yields_record)

variable {s : Session} {t : Timestamp}

/-! ### Writing and reading -/

lemma reads_timestamp (h : t.Supported) : Reads readTimestamp (.text t.text) t := by
  intro b text rest hb htext
  have hstring := reads_stringAs "an RFC 3339 formatted date and time string" t.text b text rest hb
    htext
  show Json.checked _ _ _ = _
  simp only [Json.checked, hstring, bind, Except.bind, Timestamp.parse_text h]
  rfl

lemma reads_textOrNull (o : Option String) :
    Reads (Json.nullable Json.string) (.textOrNull o) o := by
  cases o with
  | none => exact reads_nullable_null Json.string
  | some t => exact reads_nullable_some (reads_string t) Value.noConfusion

lemma reads_session (h : s.issuedAt.Supported) : Reads readSession (sessionValue s) s := by
  have h1 : Takes sessionRecord.takeMember ⟨none, none, none, none⟩ ("user", .text s.user)
      ⟨some s.user, none, none, none⟩ :=
    takes_member rfl rfl
      ((reads_string s.user).map fun t => (⟨some t, none, none, none⟩ : SessionFields))
  have h2 : Takes sessionRecord.takeMember ⟨some s.user, none, none, none⟩
      ("access_token", .text s.accessToken) ⟨some s.user, some s.accessToken, none, none⟩ :=
    takes_member rfl rfl ((reads_string s.accessToken).map fun t =>
      (⟨some s.user, some t, none, none⟩ : SessionFields))
  have h3 : Takes sessionRecord.takeMember ⟨some s.user, some s.accessToken, none, none⟩
      ("refresh_token", .textOrNull s.refreshToken)
      ⟨some s.user, some s.accessToken, some s.refreshToken, none⟩ :=
    takes_member rfl rfl ((reads_textOrNull s.refreshToken).map fun o =>
      (⟨some s.user, some s.accessToken, some o, none⟩ : SessionFields))
  have h4 : Takes sessionRecord.takeMember
      ⟨some s.user, some s.accessToken, some s.refreshToken, none⟩
      ("issued_at", .text s.issuedAt.text)
      ⟨some s.user, some s.accessToken, some s.refreshToken, some s.issuedAt⟩ :=
    takes_member rfl rfl ((reads_timestamp h).map fun t =>
      (⟨some s.user, some s.accessToken, some s.refreshToken, some t⟩ : SessionFields))
  exact reads_record (.cons h1 (.cons h2 (.cons h3 (.cons h4 .nil)))) rfl

/-- A session is read back from its document. -/
theorem decode_session (h : s.issuedAt.Supported) :
    Json.decode readSession (Utf8.source (Utf8.encode (sessionValue s).prettyText)) = .ok s := by
  rw [Value.prettyText, source_ofList]
  exact Json.decodeChecked_of_reads (reads_session h) (Json.spells_pretty _) .ok

/-! ### What can be read -/

lemma yields_timestamp : Yields readTimestamp Timestamp.Supported := by
  intro doc t rest hread
  obtain ⟨⟨text, rest'⟩, -, hcheck⟩ := bind_eq_ok_iff.1 hread
  cases hparse : Timestamp.parse text with
  | error f =>
    simp only [hparse] at hcheck
    exact nomatch hcheck
  | ok t' =>
    simp only [hparse] at hcheck
    obtain ⟨rfl, -⟩ := Prod.mk.inj (Except.ok.inj hcheck)
    exact Timestamp.supported_of_parse hparse

lemma yields_session : Yields readSession fun s => s.issuedAt.Supported := by
  refine yields_record
    (I := fun σ : SessionFields => ∀ t, σ.issuedAt = some t → t.Supported) ?_ ?_ ?_
  · intro t ht
    exact nomatch ht
  · intro m hm σ hσ
    simp only [sessionRecord, List.mem_cons, List.not_mem_nil, or_false] at hm
    rcases hm with rfl | rfl | rfl | rfl
    · refine (yields_any Json.string).map (fun t => { σ with user := some t }) ?_
      exact fun _ _ => hσ
    · refine (yields_any Json.string).map (fun t => { σ with accessToken := some t }) ?_
      exact fun _ _ => hσ
    · refine (yields_any (Json.nullable Json.string)).map
        (fun o => { σ with refreshToken := some o }) ?_
      exact fun _ _ => hσ
    · refine yields_timestamp.map (fun t => { σ with issuedAt := some t }) ?_
      intro t ht t' ht'
      rwa [← Option.some.inj ht']
  · intro σ s hσ hs
    obtain ⟨user, -, hrest⟩ := bind_eq_ok_iff.1 hs
    obtain ⟨accessToken, -, hrest⟩ := bind_eq_ok_iff.1 hrest
    obtain ⟨issuedAt, hissued, hpure⟩ := bind_eq_ok_iff.1 hrest
    rw [← Except.ok.inj hpure]
    exact hσ issuedAt (Json.required_eq_ok_iff.1 hissued)

/-- The time of a session that is read is supported. -/
theorem decodeSession_eq_ok {doc : Json.Source} (h : Json.decode readSession doc = .ok s) :
    s.issuedAt.Supported := by
  obtain ⟨s', rest, hread, hs⟩ := Json.decodeChecked_eq_ok h
  rw [← Except.ok.inj hs]
  exact yields_session doc s' rest hread

end PackageStaging.Wire
