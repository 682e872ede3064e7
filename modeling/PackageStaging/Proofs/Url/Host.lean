/-
# Hosts are read back

What a reader of hosts gives is in its final form (`Host.isFinal_of_parse`): a domain that is its
own form in ASCII and no number, or a number of 32 or 128 bits.  A host in its final form is read
from its text (`Host.parse_text`), in which nothing ends the host.
-/
import PackageStaging.Proofs.Text.Utf8
import PackageStaging.Proofs.Url.Domain
import PackageStaging.Proofs.Url.Numbers

namespace PackageStaging.Url

variable {s : List Char} {c : Char} {n : Nat} {ps : List Nat} {host : Host}

/-! ### Texts without encoded bytes -/

lemma decodedBytes_eq_self {bytes : Bytes} (h : (0x25 : UInt8) ∉ bytes) :
    decodedBytes bytes = bytes := by
  induction bytes with
  | nil => rfl
  | cons b bytes ih =>
    have hb : b ≠ 0x25 := fun heq => h (heq ▸ .head _)
    rw [decodedBytes.eq_def]
    simp only [if_neg hb]
    rw [ih fun hmem => h (.tail _ hmem)]

/-- Characters that may stand in a host: they are of ASCII, and none of those that end it. -/
def InHost (c : Char) : Prop := c.toNat < 0x80 ∧ Domain.isForbidden c = false

lemma percent_not_mem_encode (h : ∀ c ∈ s, InHost c) :
    (0x25 : UInt8) ∉ Utf8.encode (String.ofList s) := by
  intro hmem
  rw [Utf8.encode, String.toList_ofList] at hmem
  obtain ⟨c, hc, hmem⟩ := List.mem_flatMap.1 hmem
  exact Utf8.forall_ascii
    (P := fun c => Domain.isForbidden c = false → (0x25 : UInt8) ∉ String.utf8EncodeChar c)
    (by decide +kernel) (h c hc).1 (h c hc).2 hmem

/-- A text of such characters that is its own form in ASCII is read as it is. -/
lemma parse_of_ascii? [Domain.Rules] (h : ∀ c ∈ s, InHost c) (hne : s ≠ [])
    (hself : Domain.Rules.ascii? s = some s) :
    Host.parse s = Host.ofDomain s := by
  obtain ⟨c, cs, rfl⟩ := List.exists_cons_of_ne_nil hne
  have hbracket : c ≠ '[' := by
    rintro rfl
    exact absurd (h '[' (.head _)).2 (by decide)
  have hdecoded : Utf8.decode? (decodedBytes (Utf8.encode (String.ofList (c :: cs)))) =
      some (String.ofList (c :: cs)) := by
    rw [decodedBytes_eq_self (percent_not_mem_encode h), Utf8.decode?_encode]
  rw [Host.parse]
  · simp only [hdecoded, Option.bind_some, String.toList_ofList, hself]
  · exact fun rest heq => hbracket (List.cons.inj heq).1

/-! ### Numbers as hosts -/

lemma inHost_digitChar : ∀ d < 16, InHost d.digitChar := by
  simp only [InHost]
  decide

/-- A number of 32 bits consists of digits and dots. -/
lemma mem_ipv4Text (h : c ∈ ipv4Text n) : c = '.' ∨ ∃ d < 10, c = d.digitChar := by
  refine (Text.mem_joined h).imp_right fun ⟨part, hpart, hc⟩ => ?_
  obtain ⟨b, -, rfl⟩ := List.mem_map.1 hpart
  exact mem_toDigits (by decide) hc

lemma inHost_ipv4Text : ∀ c ∈ ipv4Text n, InHost c := by
  intro c hc
  rcases mem_ipv4Text hc with rfl | ⟨d, hd, rfl⟩
  · exact ⟨by decide, by decide⟩
  · exact inHost_digitChar d (by omega)

lemma ipv4Text_ne_nil (n : Nat) : ipv4Text n ≠ [] :=
  List.append_ne_nil_of_left_ne_nil Nat.toDigits_ne_nil _

/-- A number of 32 bits is its own form in ASCII. -/
lemma ascii?_ipv4Text [Domain.Rules] [Domain.LawfulRules] (n : Nat) :
    Domain.Rules.ascii? (ipv4Text n) = some (ipv4Text n) := by
  have hdigit : ∀ d < 10, d.digitChar.isDigit = true := by decide
  refine Domain.LawfulRules.digits fun c hc => (mem_ipv4Text hc).imp_right ?_
  rintro ⟨d, hd, rfl⟩
  exact hdigit d hd

/-- A number of 128 bits consists of digits and colons. -/
lemma mem_ipv6Text (h : c ∈ ipv6Text ps) : c = ':' ∨ ∃ d < 16, c = d.digitChar := by
  have hpieces : ∀ {qs : List Nat}, c ∈ piecesText qs → c = ':' ∨ ∃ d < 16, c = d.digitChar := by
    intro qs hqs
    refine (Text.mem_joined hqs).imp_right fun ⟨part, hpart, hc⟩ => ?_
    obtain ⟨p, -, rfl⟩ := List.mem_map.1 hpart
    exact mem_toDigits (by decide) hc
  simp only [ipv6Text] at h
  split_ifs at h
  · exact hpieces h
  · rcases List.mem_append.1 h with h | h
    · exact hpieces h
    · simp only [List.mem_cons] at h
      rcases h with h | h | h
      · exact .inl h
      · exact .inl h
      · exact hpieces h

/-! ### Final forms -/

/-- Hosts in their final form. -/
inductive Host.IsFinal [Domain.Rules] : Host → Prop
  /-- A domain is its own form in ASCII, and is not to be read as a number. -/
  | domain {name : List Char} (hself : Domain.Rules.ascii? name = some name)
      (hname : ∀ c ∈ name, InHost c) (hne : name ≠ []) (hnumber : endsInNumber name = false) :
    IsFinal (.domain name)
  | ipv4 {n : Nat} (hn : n < 0x100000000) : IsFinal (.ipv4 n)
  | ipv6 {ps : List Nat} (hlength : ps.length = 8) (hps : ∀ p ∈ ps, p < 0x10000) :
    IsFinal (.ipv6 ps)

/-- What is read as a host is one in its final form. -/
theorem Host.isFinal_of_parse [Domain.Rules] [Domain.LawfulRules] (h : Host.parse s = .ok host) :
    host.IsFinal := by
  rw [Host.parse.eq_def] at h
  split at h
  · rw [Host.ofBrackets] at h
    split at h
    · split at h
      · next ps hps =>
        obtain ⟨hlength, hbounds⟩ := ipv6?_bounds hps
        rw [← Except.ok.inj h]
        exact .ipv6 hlength hbounds
      · exact nomatch h
    · exact nomatch h
  · split at h
    · exact nomatch h
    · exact nomatch h
    · next name hne hname =>
      obtain ⟨d, -, hd⟩ := Option.bind_eq_some_iff.1 hname
      rw [Host.ofDomain] at h
      split_ifs at h with hnumber
      · split at h
        · next n hn =>
          obtain ⟨parts, -, hparts⟩ := Option.bind_eq_some_iff.1 hn
          rw [← Except.ok.inj h]
          exact .ipv4 (ipv4OfParts_lt hparts)
        · exact nomatch h
      · rw [← Except.ok.inj h]
        exact .domain (Domain.LawfulRules.final hd) (Domain.LawfulRules.allowed hd)
          (fun hnil => hne hnil) (by simpa using hnumber)

/-- A host is read back from its text. -/
theorem Host.parse_text [Domain.Rules] [Domain.LawfulRules] (h : host.IsFinal) :
    Host.parse host.text = .ok host := by
  cases h with
  | @domain name hself hname hne hnumber =>
    rw [Host.text, parse_of_ascii? hname hne hself, Host.ofDomain, hnumber]
    rfl
  | @ipv4 n hn =>
    rw [Host.text, parse_of_ascii? inHost_ipv4Text (ipv4Text_ne_nil n) (ascii?_ipv4Text n),
      Host.ofDomain, endsInNumber_ipv4Text, ipv4?_ipv4Text hn]
    rfl
  | @ipv6 ps hlength hps =>
    rw [Host.text, List.cons_append, Host.parse, Host.ofBrackets, List.getLast?_concat,
      List.dropLast_concat, ipv6?_ipv6Text hlength hps]
    rfl

end PackageStaging.Url
