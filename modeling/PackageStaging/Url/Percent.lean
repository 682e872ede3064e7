/-
# Percent encoding

In an address a byte may be written as `%` and two digits in base sixteen.  Which characters have
to be written so depends on the part of the address; a class of characters that may stand for
themselves is a predicate, and each class below is made from the one before it.  All characters of
an encoded text are of the class if `%` and the digits are (`keeps_of_mem_encoded`).
-/
import PackageStaging.Text.Utf8

namespace PackageStaging.Url

/-- Printable characters of ASCII and the space. -/
def isPlain (c : Char) : Bool := 0x20 ≤ c.toNat && c.toNat < 0x7F

/-- What may stand in a fragment. -/
def inFragment (c : Char) : Bool :=
  isPlain c && c ≠ ' ' && c ≠ '"' && c ≠ '<' && c ≠ '>' && c ≠ '`'

/-- What may stand in a path. -/
def inPath (c : Char) : Bool :=
  inFragment c && c ≠ '#' && c ≠ '?' && c ≠ '\x7b' && c ≠ '\x7d'

/-- What may stand in a user name or a password. -/
def inCredentials (c : Char) : Bool :=
  inPath c && c ≠ '/' && c ≠ ':' && c ≠ ';' && c ≠ '=' && c ≠ '@' && c ≠ '[' && c ≠ '\\'
    && c ≠ ']' && c ≠ '^' && c ≠ '|'

/-- What may stand in a query. -/
def inQuery (c : Char) : Bool :=
  isPlain c && c ≠ ' ' && c ≠ '"' && c ≠ '#' && c ≠ '<' && c ≠ '>'

/-- What may stand in a query of a special scheme. -/
def inSpecialQuery (c : Char) : Bool := inQuery c && c ≠ '\''

/-- A digit in base sixteen, a capital letter from ten on. -/
def capitalDigit (n : Nat) : Char :=
  if n < 10 then Char.ofNat ('0'.toNat + n) else Char.ofNat ('A'.toNat + (n - 10))

/-- A byte in its encoded form. -/
def encodedByte (b : UInt8) : List Char :=
  ['%', capitalDigit (b.toNat / 16), capitalDigit (b.toNat % 16)]

/-- A character: itself if it is of the class, else its bytes in their encoded form. -/
def encodedChar (keeps : Char → Bool) (c : Char) : List Char :=
  if keeps c then [c] else (String.utf8EncodeChar c).flatMap encodedByte

/-- The text with every character encoded that is not of the class. -/
def encoded (keeps : Char → Bool) (s : List Char) : List Char := s.flatMap (encodedChar keeps)

/-- The value of a digit in base sixteen. -/
def digitValue? (b : UInt8) : Option UInt8 :=
  if 0x30 ≤ b ∧ b ≤ 0x39 then some (b - 0x30)
  else if 0x41 ≤ b ∧ b ≤ 0x46 then some (b - 0x41 + 10)
  else if 0x61 ≤ b ∧ b ≤ 0x66 then some (b - 0x61 + 10)
  else none

/-- The bytes with the encoded ones decoded; a `%` without two digits stands for itself. -/
def decodedBytes : Bytes → Bytes
  | [] => []
  | b :: rest =>
    if b = 0x25 then
      match rest with
      | x :: y :: rest' =>
        match digitValue? x, digitValue? y with
        | some x, some y => (x * 16 + y) :: decodedBytes rest'
        | _, _ => b :: decodedBytes (x :: y :: rest')
      | rest => b :: decodedBytes rest
    else b :: decodedBytes rest

/-- A text of characters of the class is encoded as itself. -/
theorem encoded_eq_self {keeps : Char → Bool} {s : List Char} (h : ∀ c ∈ s, keeps c = true) :
    encoded keeps s = s := by
  induction s with
  | nil => rfl
  | cons c s ih =>
    have hc : keeps c = true := h c (by simp)
    have hs := ih fun d hd => h d (List.mem_cons_of_mem _ hd)
    simp only [encoded] at hs
    simp [encoded, encodedChar, hc, hs]

theorem mem_encodedByte {b : UInt8} {c : Char} (h : c ∈ encodedByte b) :
    c = '%' ∨ ∃ n < 16, c = capitalDigit n := by
  simp only [encodedByte, List.mem_cons, List.not_mem_nil, or_false] at h
  rcases h with rfl | rfl | rfl
  · exact .inl rfl
  · exact .inr ⟨_, by have := b.toNat_lt; omega, rfl⟩
  · exact .inr ⟨_, by omega, rfl⟩

/-- An encoded text holds characters of the class only, if `%` and the digits are of the class. -/
theorem keeps_of_mem_encoded {keeps : Char → Bool} (hp : keeps '%' = true)
    (hd : ∀ n < 16, keeps (capitalDigit n) = true) {s : List Char} {c : Char}
    (h : c ∈ encoded keeps s) : keeps c = true := by
  simp only [encoded, List.mem_flatMap] at h
  obtain ⟨d, -, h⟩ := h
  simp only [encodedChar] at h
  split at h
  · next hk => simp only [List.mem_cons, List.not_mem_nil, or_false] at h; exact h ▸ hk
  · simp only [List.mem_flatMap] at h
    obtain ⟨b, -, hb⟩ := h
    rcases mem_encodedByte hb with rfl | ⟨n, hn, rfl⟩
    · exact hp
    · exact hd n hn

end PackageStaging.Url
