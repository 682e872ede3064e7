/-
# Authorities are read back

What is read as an authority of a special scheme is in its final form (`isFinal_of_readAuthority`),
and one in its final form is read from its text (`readAuthority_text`): no part holds the character
that ends it, and a colon in a host stands between brackets.
-/
import Mathlib.Data.List.TakeWhile
import PackageStaging.Proofs.Url.Characters
import PackageStaging.Proofs.Url.Host

namespace PackageStaging.Url

variable {scheme s left front back : List Char} {c : Char} {n : Nat} {host : Host}
  {port : Option Nat} {a : Authority} {behind more : Bool}

/-! ### Hosts -/

/-- What may stand in a host ends neither the host nor what is in front of it. -/
lemma inAuthority_of_inHost (h : InHost c) :
    (InAuthority c ∧ c ≠ '@') ∧ c ≠ ':' ∧ c ≠ '[' ∧ c ≠ ']' :=
  Utf8.forall_ascii
    (P := fun c => Domain.isForbidden c = false →
      (InAuthority c ∧ c ≠ '@') ∧ c ≠ ':' ∧ c ≠ '[' ∧ c ≠ ']')
    (by decide +kernel) h.1 h.2

lemma inAuthority_digitChar : ∀ d < 16, InAuthority d.digitChar ∧ d.digitChar ≠ '@' := by
  decide

/-- The text of a host holds nothing that ends an authority or credentials. -/
lemma Host.IsFinal.inAuthority [Domain.Rules] (h : host.IsFinal) (hc : c ∈ host.text) :
    InAuthority c ∧ c ≠ '@' := by
  cases h with
  | domain _ hname => exact (inAuthority_of_inHost (hname c hc)).1
  | ipv4 => exact (inAuthority_of_inHost (inHost_ipv4Text c hc)).1
  | ipv6 =>
    rw [Host.text, List.cons_append, List.mem_cons, List.mem_append, List.mem_singleton] at hc
    rcases hc with rfl | hc | rfl
    · decide
    · rcases mem_ipv6Text hc with rfl | ⟨d, hd, rfl⟩
      · decide
      · exact inAuthority_digitChar d hd
    · decide

lemma Host.IsFinal.text_ne_nil [Domain.Rules] (h : host.IsFinal) : host.text ≠ [] := by
  cases h with
  | domain _ _ hne => exact hne
  | ipv4 => exact ipv4Text_ne_nil _
  | ipv6 => exact List.cons_ne_nil _ _

/-- Characters that are no brackets are passed, colons only between brackets. -/
lemma hostPart_append {inside : Bool}
    (h : ∀ c ∈ s, c ≠ '[' ∧ c ≠ ']' ∧ (c = ':' → inside = true)) (rest : List Char) :
    hostPart inside (s ++ rest) = s ++ hostPart inside rest := by
  induction s with
  | nil => rfl
  | cons c s ih =>
    obtain ⟨hopens, hcloses, hcolon⟩ := h c (.head _)
    have hrest := ih fun d hd => h d (.tail _ hd)
    have hgoes : ¬ (c = ':' && !inside) = true := by
      simp only [Bool.and_eq_true, decide_eq_true_eq, Bool.not_eq_true']
      rintro ⟨hc, hinside⟩
      exact Bool.noConfusion (hinside.symm.trans (hcolon hc))
    rw [List.cons_append, hostPart, if_neg hgoes, if_neg hopens, if_neg hcloses, hrest,
      List.cons_append]

/-- A host is passed whole. -/
lemma hostPart_text [Domain.Rules] (h : host.IsFinal) (rest : List Char) :
    hostPart false (host.text ++ rest) = host.text ++ hostPart false rest := by
  have hhost : (∀ c ∈ host.text, InHost c) →
      hostPart false (host.text ++ rest) = host.text ++ hostPart false rest := by
    intro h
    refine hostPart_append (fun c hc => ?_) rest
    obtain ⟨-, hcolon, hopens, hcloses⟩ := inAuthority_of_inHost (h c hc)
    exact ⟨hopens, hcloses, fun heq => absurd heq hcolon⟩
  cases h with
  | domain _ hname => exact hhost hname
  | ipv4 => exact hhost inHost_ipv4Text
  | @ipv6 ps _ _ =>
    have hdigit : ∀ d < 16, d.digitChar ≠ '[' ∧ d.digitChar ≠ ']' := by decide
    have hinside : hostPart true (ipv6Text ps ++ ']' :: rest) =
        ipv6Text ps ++ ']' :: hostPart false rest := by
      refine hostPart_append (fun c hc => ?_) _
      rcases mem_ipv6Text hc with rfl | ⟨d, hd, rfl⟩
      · decide
      · exact ⟨(hdigit d hd).1, (hdigit d hd).2, fun _ => rfl⟩
    rw [Host.text, List.cons_append, List.cons_append, List.append_assoc, List.singleton_append]
    show '[' :: hostPart true _ = _
    rw [hinside, List.cons_append, List.append_assoc, List.singleton_append]

/-! ### Ports -/

/-- A port that is kept is none that the scheme implies. -/
def IsPort (scheme : List Char) (p : Nat) : Prop := p ≤ 65535 ∧ impliedPort scheme ≠ some p

/-- Without a backslash in the text nothing is left behind the port. -/
lemma isPort_of_readPort (hs : '\\' ∉ s) (h : readPort scheme s = .ok (port, left)) :
    (∀ p, port = some p → IsPort scheme p) ∧ left = [] := by
  rw [readPort] at h
  split at h
  · cases h
  · next n hn =>
    by_cases hless : 65535 < n
    · rw [if_pos hless] at h
      cases h
    · rw [if_neg hless] at h
      split at h
      · next c rest hrest =>
        have hc : c ≠ '\\' := by
          rintro rfl
          have hmem : '\\' ∈ s.dropWhile Char.isDigit := hrest ▸ .head _
          exact hs ((List.dropWhile_sublist _).subset hmem)
        rw [if_neg hc] at h
        cases h
      · obtain ⟨rfl, rfl⟩ := Prod.mk.inj (Except.ok.inj h)
        refine ⟨fun p hp => ?_, rfl⟩
        split_ifs at hp with himplied
        obtain rfl := Option.some.inj hp
        exact ⟨by omega, fun heq => himplied (.inr heq)⟩

lemma readPort_toDigits (h : IsPort scheme n) :
    readPort scheme (Nat.toDigits 10 n) = .ok (some n, []) := by
  have hdigits : ∀ c ∈ Nat.toDigits 10 n, c.isDigit = true := fun c hc =>
    Nat.isDigit_of_mem_toDigits (by decide) (by decide) hc
  have hle : ¬ 65535 < n := Nat.not_lt.2 h.1
  have hkept : ¬ (Nat.toDigits 10 n = [] ∨ impliedPort scheme = some n) := by
    rw [not_or]
    exact ⟨Nat.toDigits_ne_nil, h.2⟩
  rw [readPort, List.takeWhile_eq_self_iff.2 hdigits, List.dropWhile_eq_nil_iff.2 hdigits,
    numberIn_toDigits (by decide) (by decide)]
  simp only [if_neg hle, if_neg hkept]

/-! ### Credentials -/

lemma cutCredentials_append (h : '@' ∉ back) :
    cutCredentials (front ++ '@' :: back) = some (front, back) := by
  have hne : ∀ c ∈ back.reverse, decide (c ≠ '@') = true := fun c hc =>
    decide_eq_true fun heq => h (heq ▸ List.mem_reverse.1 hc)
  have hreverse : (front ++ '@' :: back).reverse = back.reverse ++ '@' :: front.reverse := by simp
  rw [cutCredentials, hreverse, List.dropWhile_append_of_pos hne,
    List.takeWhile_append_of_pos hne]
  simp

lemma cutCredentials_eq_none (h : '@' ∉ s) : cutCredentials s = none := by
  have hne : ∀ c ∈ s.reverse, decide (c ≠ '@') = true := fun c hc =>
    decide_eq_true fun heq => h (heq ▸ List.mem_reverse.1 hc)
  rw [cutCredentials, List.dropWhile_eq_nil_iff.2 hne]

lemma inCredentials_of_mem_encoded (h : c ∈ encoded inCredentials s) : inCredentials c = true :=
  keeps_of_mem_encoded (by decide) (by decide) h

lemma inCredentials_readCredentials (s : List Char) :
    (∀ c ∈ (readCredentials s).1, inCredentials c = true) ∧
      ∀ c ∈ (readCredentials s).2, inCredentials c = true :=
  ⟨fun _ => inCredentials_of_mem_encoded, fun _ => inCredentials_of_mem_encoded⟩

/-- What is left for the host is a part of the text. -/
lemma mem_of_mem_behindCredentials (hc : c ∈ ((cutCredentials s).getD ([], s)).2) : c ∈ s := by
  rw [cutCredentials.eq_def] at hc
  split at hc
  · exact List.mem_reverse.1 ((List.takeWhile_sublist _).subset (List.mem_reverse.1 hc))
  · exact hc

/-! ### Final forms -/

variable [Domain.Rules]

/-- Authorities of a scheme in their final form. -/
structure Authority.IsFinal (scheme : List Char) (a : Authority) : Prop where
  username : ∀ c ∈ a.username, inCredentials c = true
  password : ∀ c ∈ a.password, inCredentials c = true
  host : a.host.IsFinal
  port : ∀ p, a.port = some p → IsPort scheme p

lemma isFinal_of_readHost [Domain.LawfulRules] (hspecial : isSpecial scheme = true)
    (hs : '\\' ∉ s) (h : readHost scheme s behind = .ok (host, port, left)) :
    host.IsFinal ∧ (∀ p, port = some p → IsPort scheme p) ∧ left = [] := by
  rw [readHost] at h
  dsimp only at h
  split_ifs at h with hempty
  obtain ⟨host', hhost, h⟩ := bind_eq_ok_iff.1 h
  have hfinal := Host.isFinal_of_parse hhost
  split at h
  · split_ifs at h
    obtain ⟨rfl, hrest⟩ := Prod.mk.inj (Except.ok.inj h)
    obtain ⟨rfl, rfl⟩ := Prod.mk.inj hrest
    exact ⟨hfinal, fun p hp => (nomatch hp), rfl⟩
  · next d digits hdigits =>
    split_ifs at h
    obtain ⟨⟨port', left'⟩, hport, h⟩ := bind_eq_ok_iff.1 h
    obtain ⟨rfl, hrest⟩ := Prod.mk.inj (Except.ok.inj h)
    obtain ⟨rfl, rfl⟩ := Prod.mk.inj hrest
    have hmem : '\\' ∉ digits := fun hmem =>
      hs (List.mem_of_mem_drop (hdigits ▸ List.mem_cons_of_mem d hmem))
    exact ⟨hfinal, isPort_of_readPort hmem hport⟩

/-- What is read as an authority is in its final form. -/
theorem isFinal_of_readAuthority [Domain.LawfulRules] (hspecial : isSpecial scheme = true)
    (hs : '\\' ∉ s) (h : readAuthority scheme s more = .ok (a, left)) :
    a.IsFinal scheme ∧ left = [] := by
  have hrest : '\\' ∉ ((cutCredentials s).getD ([], s)).2 := fun hmem =>
    hs (mem_of_mem_behindCredentials hmem)
  have hcredentials := inCredentials_readCredentials ((cutCredentials s).getD ([], s)).1
  rw [readAuthority] at h
  generalize (cutCredentials s).getD ([], s) = parts at h hrest hcredentials
  obtain ⟨given, rest⟩ := parts
  dsimp only at h hcredentials
  generalize readCredentials given = credentials at h hcredentials
  obtain ⟨username, password⟩ := credentials
  dsimp only at h
  split_ifs at h
  obtain ⟨⟨host, port, left'⟩, hhost, h⟩ := bind_eq_ok_iff.1 h
  obtain ⟨rfl, rfl⟩ := Prod.mk.inj (Except.ok.inj h)
  obtain ⟨hfinal, hport, hleft⟩ := isFinal_of_readHost hspecial hrest hhost
  exact ⟨⟨hcredentials.1, hcredentials.2, hfinal, hport⟩, hleft⟩

/-- A host and a port are read back from their text. -/
lemma readHost_hostText [Domain.LawfulRules] (hspecial : isSpecial scheme = true)
    (h : a.IsFinal scheme) :
    readHost scheme a.hostText behind = .ok (a.host, a.port, []) := by
  have hne := h.host.text_ne_nil
  have hsome : a.host ≠ .domain [] := fun heq => hne (by rw [heq]; rfl)
  have hpart : hostPart false a.hostText = a.host.text := by
    rw [Authority.hostText, hostPart_text h.host]
    cases a.port with
    | none => exact List.append_nil _
    | some p => exact List.append_nil _
  have hempty : ¬ (isSpecial scheme = true ∧ a.host.text = []) := fun hboth => hne hboth.2
  rw [readHost]
  dsimp only
  rw [hpart, if_neg hempty, if_pos hspecial, Host.parse_text h.host, Authority.hostText,
    List.drop_left]
  refine bind_eq_ok_iff.2 ⟨a.host, rfl, ?_⟩
  cases hport : a.port with
  | none => exact if_neg fun hboth => hsome hboth.1
  | some p =>
    dsimp only
    rw [if_neg hsome, readPort_toDigits (h.port p hport)]
    rfl

/-- The texts of the parts of credentials are found again. -/
lemma readCredentials_text (h : a.IsFinal scheme) :
    readCredentials (a.username ++ (if a.password = [] then [] else ':' :: a.password)) =
      (a.username, a.password) := by
  have hcolon : ∀ c ∈ a.username, decide (c ≠ ':') = true := fun c hc =>
    decide_eq_true (inAuthority_of_inCredentials (h.username c hc)).2
  have husername := encoded_eq_self h.username
  have hpassword := encoded_eq_self h.password
  rw [readCredentials, List.takeWhile_append_of_pos hcolon, List.dropWhile_append_of_pos hcolon]
  split_ifs with hnone
  · rw [hnone] at hpassword ⊢
    simp [husername, hpassword]
  · simp [husername, hpassword]

lemma Authority.IsFinal.hostText_ne_nil (h : a.IsFinal scheme) : a.hostText ≠ [] :=
  List.append_ne_nil_of_left_ne_nil h.host.text_ne_nil _

/-- The text of a host and a port holds nothing that ends an authority or credentials. -/
lemma Authority.IsFinal.inAuthority_host (h : a.IsFinal scheme) (hc : c ∈ a.hostText) :
    InAuthority c ∧ c ≠ '@' := by
  rw [Authority.hostText, List.mem_append] at hc
  rcases hc with hc | hc
  · exact h.host.inAuthority hc
  · split at hc
    · rcases List.mem_cons.1 hc with rfl | hc
      · decide
      · obtain ⟨d, hd, rfl⟩ := mem_toDigits (by decide) hc
        exact inAuthority_digitChar d (by omega)
    · exact absurd hc List.not_mem_nil

/-- The text of an authority holds nothing that ends it. -/
lemma Authority.IsFinal.inAuthority (h : a.IsFinal scheme) (hc : c ∈ a.text) : InAuthority c := by
  rw [Authority.text, List.mem_append] at hc
  rcases hc with hc | hc
  · rw [Authority.credentialsText] at hc
    split_ifs at hc with hnone hpassword
    · exact absurd hc List.not_mem_nil
    · rw [List.append_nil, List.mem_append, List.mem_singleton] at hc
      rcases hc with hc | rfl
      · exact (inAuthority_of_inCredentials (h.username c hc)).1
      · decide
    · rw [List.mem_append, List.mem_append, List.mem_cons, List.mem_singleton] at hc
      rcases hc with (hc | rfl | hc) | rfl
      · exact (inAuthority_of_inCredentials (h.username c hc)).1
      · decide
      · exact (inAuthority_of_inCredentials (h.password c hc)).1
      · decide
  · exact (h.inAuthority_host hc).1

lemma Authority.IsFinal.text_ne_nil (h : a.IsFinal scheme) : a.text ≠ [] :=
  List.append_ne_nil_of_right_ne_nil _ h.hostText_ne_nil

/-- An authority is read back from its text. -/
theorem readAuthority_text [Domain.LawfulRules] (hspecial : isSpecial scheme = true)
    (h : a.IsFinal scheme) :
    readAuthority scheme a.text more = .ok (a, []) := by
  have hat : '@' ∉ a.hostText := fun hmem => (h.inAuthority_host hmem).2 rfl
  have hhost : ∀ behind, readHost scheme a.hostText behind = .ok (a.host, a.port, []) :=
    fun behind => readHost_hostText hspecial h
  by_cases hnone : a.username = [] ∧ a.password = []
  · have htext : a.text = a.hostText := by
      rw [Authority.text, Authority.credentialsText, if_pos hnone, List.nil_append]
    have hcredentials : readCredentials [] = (a.username, a.password) := by
      rw [hnone.1, hnone.2]
      rfl
    rw [readAuthority, htext, cutCredentials_eq_none hat]
    simp only [Option.getD_none, hcredentials, Option.isSome_none, Bool.false_eq_true, false_and,
      if_false, hhost]
    rfl
  · have htext : a.text = a.username ++ (if a.password = [] then [] else ':' :: a.password) ++
        '@' :: a.hostText := by
      rw [Authority.text, Authority.credentialsText, if_neg hnone, List.append_assoc,
        List.singleton_append]
    rw [readAuthority, htext, cutCredentials_append hat]
    simp only [Option.getD_some, readCredentials_text h, h.hostText_ne_nil, false_and, and_false,
      if_false, hhost]
    rfl

end PackageStaging.Url
