/-
# Texts and their bytes

The bytes that spell a text are cut into its characters again (`pieces_encode`), and bytes that
spell a text are the ones that it is spelled with (`encode_of_decode?`).
-/
import Mathlib.Logic.Basic
import Mathlib.Tactic.Lemma
import Mathlib.Tactic.SplitIfs
import PackageStaging.Text.Utf8

namespace PackageStaging.Utf8

variable {a b c d low high : UInt8} {rest : Bytes}

/-! ### The first byte -/

lemma announced_two (h : 0xC2 ≤ a.toNat) (h' : a.toNat ≤ 0xDF) :
    announced a = some (1, 0x80, 0xBF) := by
  rw [announced, if_pos ⟨UInt8.le_iff_toNat_le.2 h, UInt8.le_iff_toNat_le.2 h'⟩]

lemma announced_three (h : 0xE0 ≤ a.toNat) (h' : a.toNat ≤ 0xEF) :
    announced a = some (2, if a.toNat = 0xE0 then 0xA0 else 0x80,
      if a.toNat = 0xED then 0x9F else 0xBF) := by
  simp only [announced, UInt8.le_iff_toNat_le, ← UInt8.toNat_inj, UInt8.toNat_ofNat]
  split_ifs <;> first | rfl | omega

lemma announced_four (h : 0xF0 ≤ a.toNat) (h' : a.toNat ≤ 0xF4) :
    announced a = some (3, if a.toNat = 0xF0 then 0x90 else 0x80,
      if a.toNat = 0xF4 then 0x8F else 0xBF) := by
  simp only [announced, UInt8.le_iff_toNat_le, ← UInt8.toNat_inj, UInt8.toNat_ofNat]
  split_ifs <;> first | rfl | omega

/-- What is announced is one of three kinds of characters. -/
lemma announced_cases {count : Nat} (h : announced a = some (count, low, high)) :
    (count = 1 ∧ low = 0x80 ∧ high = 0xBF ∧ 0xC2 ≤ a.toNat ∧ a.toNat ≤ 0xDF) ∨
      (count = 2 ∧ low = (if a.toNat = 0xE0 then 0xA0 else 0x80) ∧
        high = (if a.toNat = 0xED then 0x9F else 0xBF) ∧ 0xE0 ≤ a.toNat ∧ a.toNat ≤ 0xEF) ∨
      (count = 3 ∧ low = (if a.toNat = 0xF0 then 0x90 else 0x80) ∧
        high = (if a.toNat = 0xF4 then 0x8F else 0xBF) ∧ 0xF0 ≤ a.toNat ∧ a.toNat ≤ 0xF4) := by
  by_cases h2 : 0xC2 ≤ a.toNat ∧ a.toNat ≤ 0xDF
  · rw [announced_two h2.1 h2.2] at h
    cases h
    exact .inl ⟨rfl, rfl, rfl, h2.1, h2.2⟩
  by_cases h3 : 0xE0 ≤ a.toNat ∧ a.toNat ≤ 0xEF
  · rw [announced_three h3.1 h3.2] at h
    cases h
    exact .inr (.inl ⟨rfl, rfl, rfl, h3.1, h3.2⟩)
  by_cases h4 : 0xF0 ≤ a.toNat ∧ a.toNat ≤ 0xF4
  · rw [announced_four h4.1 h4.2] at h
    cases h
    exact .inr (.inr ⟨rfl, rfl, rfl, h4.1, h4.2⟩)
  -- no other byte begins a character of several bytes
  · exfalso
    simp only [announced, UInt8.le_iff_toNat_le, ← UInt8.toNat_inj, UInt8.toNat_ofNat] at h
    split_ifs at h <;> omega

lemma not_ascii_of_announced {x : Nat × UInt8 × UInt8} (h : announced a = some x) :
    ¬ a < 0x80 := by
  obtain ⟨count, low, high⟩ := x
  rw [UInt8.lt_iff_toNat_lt]
  have h80 : (0x80 : UInt8).toNat = 0x80 := rfl
  rcases announced_cases h with ⟨-, -, -, hle, -⟩ | ⟨-, -, -, hle, -⟩ | ⟨-, -, -, hle, -⟩ <;> omega

/-! ### Cutting off one character -/

lemma pieces_one (h : a < 0x80) (rest : Bytes) :
    pieces (a :: rest) = .char (Char.ofNat a.toNat) :: pieces rest := by
  rw [pieces.eq_def]
  simp only [if_pos h]

lemma pieces_two (ha : announced a = some (1, low, high)) (hb : low ≤ b ∧ b ≤ high)
    (rest : Bytes) :
    pieces (a :: b :: rest) =
      .char (Char.ofNat (a.toNat % 0x20 * 0x40 + payload b)) :: pieces rest := by
  rw [pieces.eq_def]
  simp only [if_neg (not_ascii_of_announced ha), ha, hb, and_self, not_true_eq_false, if_false,
    if_true]

lemma pieces_three (ha : announced a = some (2, low, high)) (hb : low ≤ b ∧ b ≤ high)
    (hc : isTail c = true) (rest : Bytes) :
    pieces (a :: b :: c :: rest) =
      .char (Char.ofNat (a.toNat % 0x10 * 0x1000 + payload b * 0x40 + payload c)) ::
        pieces rest := by
  rw [pieces.eq_def]
  simp [if_neg (not_ascii_of_announced ha), ha, hb, hc]

lemma pieces_four (ha : announced a = some (3, low, high)) (hb : low ≤ b ∧ b ≤ high)
    (hc : isTail c = true) (hd : isTail d = true) (rest : Bytes) :
    pieces (a :: b :: c :: d :: rest) =
      .char (Char.ofNat (a.toNat % 0x08 * 0x40000 + payload b * 0x1000 + payload c * 0x40 +
        payload d)) :: pieces rest := by
  rw [pieces.eq_def]
  simp [if_neg (not_ascii_of_announced ha), ha, hb, hc, hd]

lemma isTail_iff : isTail b = true ↔ 0x80 ≤ b.toNat ∧ b.toNat ≤ 0xBF := by
  simp [isTail, UInt8.le_iff_toNat_le]

/-- The code points of characters. -/
lemma toNat_lt (c : Char) : c.toNat < 0xD800 ∨ (0xDFFF < c.toNat ∧ c.toNat < 0x110000) := c.valid

lemma toNat_ofNat {n : Nat} (h : n < 0xD800 ∨ (0xDFFF < n ∧ n < 0x110000)) :
    (Char.ofNat n).toNat = n := by
  rw [Char.ofNat, dif_pos h]
  rfl

lemma toNat_byte {n : Nat} (h : n < 256) : (UInt8.ofNat n).toNat = n :=
  UInt8.toNat_ofNat_of_lt' h

lemma isTail_byte (n : Nat) : isTail (UInt8.ofNat (n % 0x40 + 0x80)) = true := by
  rw [isTail_iff, toNat_byte (by omega)]
  omega

lemma payload_byte (n : Nat) : payload (UInt8.ofNat (n % 0x40 + 0x80)) = n % 0x40 := by
  rw [payload, toNat_byte (by omega)]
  omega

/-! The bytes of a code point make up one piece, by the number of bytes. -/

lemma pieces_of_one {v : Nat} (h : v ≤ 0x7F) (rest : Bytes) :
    pieces (UInt8.ofNat v :: rest) = .char (Char.ofNat v) :: pieces rest := by
  have ha := toNat_byte (n := v) (by omega)
  rw [pieces_one, ha]
  rw [UInt8.lt_iff_toNat_lt, ha]
  exact Nat.lt_succ_of_le h

lemma pieces_of_two {v : Nat} (h : ¬v ≤ 0x7F) (hv : v ≤ 0x7FF) (rest : Bytes) :
    pieces (UInt8.ofNat (v / 64 % 0x20 + 0xC0) :: UInt8.ofNat (v % 0x40 + 0x80) :: rest) =
      .char (Char.ofNat v) :: pieces rest := by
  have ha := toNat_byte (n := v / 64 % 0x20 + 0xC0) (by omega)
  have htail := isTail_iff.1 (isTail_byte v)
  have hannounced := announced_two (a := UInt8.ofNat (v / 64 % 0x20 + 0xC0)) (by omega) (by omega)
  have hsum : (v / 64 % 0x20 + 0xC0) % 0x20 * 0x40 + v % 0x40 = v := by omega
  rw [pieces_two hannounced, payload_byte, ha, hsum]
  exact ⟨UInt8.le_iff_toNat_le.2 htail.1, UInt8.le_iff_toNat_le.2 htail.2⟩

lemma pieces_of_three {v : Nat} (h : ¬v ≤ 0x7FF) (hv : v ≤ 0xFFFF)
    (hvalid : v < 0xD800 ∨ 0xDFFF < v) (rest : Bytes) :
    pieces (UInt8.ofNat (v / 4096 % 0x10 + 0xE0) :: UInt8.ofNat (v / 64 % 0x40 + 0x80) ::
      UInt8.ofNat (v % 0x40 + 0x80) :: rest) = .char (Char.ofNat v) :: pieces rest := by
  have ha := toNat_byte (n := v / 4096 % 0x10 + 0xE0) (by omega)
  have hb := toNat_byte (n := v / 64 % 0x40 + 0x80) (by omega)
  have hannounced := announced_three (a := UInt8.ofNat (v / 4096 % 0x10 + 0xE0)) (by omega)
    (by omega)
  have hsum : (v / 4096 % 0x10 + 0xE0) % 0x10 * 0x1000 + v / 64 % 0x40 * 0x40 + v % 0x40 = v := by
    omega
  rw [pieces_three hannounced _ (isTail_byte v), payload_byte, payload_byte, ha, hsum]
  rw [ha, UInt8.le_iff_toNat_le, UInt8.le_iff_toNat_le, hb]
  -- a short form would need a lower second byte, and a surrogate a higher one
  constructor
  · split_ifs
    · show 0xA0 ≤ _
      omega
    · show 0x80 ≤ _
      omega
  · split_ifs
    · show _ ≤ 0x9F
      omega
    · show _ ≤ 0xBF
      omega

lemma pieces_of_four {v : Nat} (h : ¬v ≤ 0xFFFF) (hv : v < 0x110000) (rest : Bytes) :
    pieces (UInt8.ofNat (v / 262144 % 0x08 + 0xF0) :: UInt8.ofNat (v / 4096 % 0x40 + 0x80) ::
      UInt8.ofNat (v / 64 % 0x40 + 0x80) :: UInt8.ofNat (v % 0x40 + 0x80) :: rest) =
      .char (Char.ofNat v) :: pieces rest := by
  have ha := toNat_byte (n := v / 262144 % 0x08 + 0xF0) (by omega)
  have hb := toNat_byte (n := v / 4096 % 0x40 + 0x80) (by omega)
  have hannounced := announced_four (a := UInt8.ofNat (v / 262144 % 0x08 + 0xF0)) (by omega)
    (by omega)
  have hsum : (v / 262144 % 0x08 + 0xF0) % 0x08 * 0x40000 + v / 4096 % 0x40 * 0x1000 +
      v / 64 % 0x40 * 0x40 + v % 0x40 = v := by omega
  rw [pieces_four hannounced _ (isTail_byte _) (isTail_byte v), payload_byte, payload_byte,
    payload_byte, ha, hsum]
  rw [ha, UInt8.le_iff_toNat_le, UInt8.le_iff_toNat_le, hb]
  -- a short form would need a lower second byte, and what is no code point a higher one
  constructor
  · split_ifs
    · show 0x90 ≤ _
      omega
    · show 0x80 ≤ _
      omega
  · split_ifs
    · show _ ≤ 0x8F
      omega
    · show _ ≤ 0xBF
      omega

/-- The bytes of a character are cut off whole. -/
lemma pieces_encodeChar (c : Char) (rest : Bytes) :
    pieces (String.utf8EncodeChar c ++ rest) = .char c :: pieces rest := by
  have hc := toNat_lt c
  have hv : c.val.toNat = c.toNat := rfl
  have hsame : Piece.char c :: pieces rest = .char (Char.ofNat c.toNat) :: pieces rest := by
    rw [Char.ofNat_toNat]
  unfold String.utf8EncodeChar
  rw [hv, hsame]
  dsimp only
  split_ifs with h1 h2 h3
  · exact pieces_of_one h1 rest
  · exact pieces_of_two h1 h2 rest
  · exact pieces_of_three h2 h3 (by omega) rest
  · exact pieces_of_four h3 (by omega) rest

/-- What holds for the code points of ASCII holds for its characters. -/
lemma forall_ascii {P : Char → Prop} (h : ∀ n < 0x80, P (Char.ofNat n)) {c : Char}
    (hc : c.toNat < 0x80) : P c := by
  have hc := h c.toNat hc
  rwa [Char.ofNat_toNat] at hc

/-- A character beyond ASCII has no byte of ASCII. -/
lemma le_of_mem_encodeChar {c : Char} {b : UInt8} (hc : 0x80 ≤ c.toNat)
    (hb : b ∈ String.utf8EncodeChar c) : 0x80 ≤ b.toNat := by
  have hv : c.val.toNat = c.toNat := rfl
  unfold String.utf8EncodeChar at hb
  rw [hv] at hb
  dsimp only at hb
  split_ifs at hb with h1 h2 h3
  · omega
  all_goals
    simp only [List.mem_cons, List.not_mem_nil, or_false] at hb
    rcases hb with rfl | rfl | rfl | rfl
  all_goals
    rw [toNat_byte (by omega)]
    omega

/-- The bytes of a text are cut into its characters. -/
theorem pieces_encode (s : String) : pieces (encode s) = s.toList.map .char := by
  rw [encode]
  induction s.toList with
  | nil => rfl
  | cons c cs ih => rw [List.flatMap_cons, pieces_encodeChar, ih, List.map_cons]

/-- Texts of the same bytes are the same. -/
lemma encode_injective {s s' : String} (h : encode s = encode s') : s = s' := by
  have hpieces := congrArg pieces h
  rw [pieces_encode, pieces_encode] at hpieces
  have hchars := List.map_inj_right (fun _ _ hc => Piece.char.inj hc) |>.1 hpieces
  exact String.toList_inj.1 hchars

/-- The readers of data formats get a text that was written as its characters. -/
theorem source_encode (s : String) : source (encode s) = s.toList.map some := by
  rw [source, pieces_encode]
  induction s.toList with
  | nil => rfl
  | cons c cs ih => rw [List.map_cons, List.flatMap_cons, ih, List.map_cons]; rfl

/-- The bytes of a text spell it. -/
lemma decode?_encode (s : String) : decode? (encode s) = some s := by
  have hchars : (s.toList.map Piece.char).mapM Piece.char? = some s.toList := by
    induction s.toList with
    | nil => rfl
    | cons c cs ih =>
      rw [List.map_cons, List.mapM_cons, ih]
      rfl
  rw [decode?, pieces_encode, hchars, Option.map_some, String.ofList_toList]

/-! ### From the bytes to the text and back -/

/-- A byte is known by its number. -/
lemma byte_eq {n : Nat} (h : n = a.toNat) : UInt8.ofNat n = a := by
  rw [h, UInt8.ofNat_toNat]

lemma encodeChar_one (h : a < 0x80) : String.utf8EncodeChar (Char.ofNat a.toNat) = [a] := by
  have hlt : a.toNat < 0x80 := UInt8.lt_iff_toNat_lt.1 h
  have hn := toNat_ofNat (n := a.toNat) (by omega)
  have hv : (Char.ofNat a.toNat).val.toNat = (Char.ofNat a.toNat).toNat := rfl
  unfold String.utf8EncodeChar
  rw [hv, hn]
  dsimp only
  rw [if_pos (by omega), UInt8.ofNat_toNat]

lemma encodeChar_two (ha : announced a = some (1, low, high)) (hb : low ≤ b ∧ b ≤ high) :
    String.utf8EncodeChar (Char.ofNat (a.toNat % 0x20 * 0x40 + payload b)) = [a, b] := by
  rw [UInt8.le_iff_toNat_le, UInt8.le_iff_toNat_le] at hb
  rcases announced_cases ha with ⟨-, rfl, rfl, hle, hge⟩ | ⟨hno, -⟩ | ⟨hno, -⟩
  · have hlow : 0x80 ≤ b.toNat := hb.1
    have hhigh : b.toNat ≤ 0xBF := hb.2
    have hn := toNat_ofNat (n := a.toNat % 0x20 * 0x40 + payload b) (by rw [payload]; omega)
    have hv : (Char.ofNat (a.toNat % 0x20 * 0x40 + payload b)).val.toNat =
      (Char.ofNat (a.toNat % 0x20 * 0x40 + payload b)).toNat := rfl
    unfold String.utf8EncodeChar
    rw [hv, hn, payload]
    dsimp only
    rw [if_neg (by omega), if_pos (by omega), byte_eq (a := a) (by omega),
      byte_eq (a := b) (by omega)]
  · exact nomatch hno
  · exact nomatch hno

lemma encodeChar_three (ha : announced a = some (2, low, high)) (hb : low ≤ b ∧ b ≤ high)
    (hc : isTail c = true) :
    String.utf8EncodeChar
      (Char.ofNat (a.toNat % 0x10 * 0x1000 + payload b * 0x40 + payload c)) = [a, b, c] := by
  rw [UInt8.le_iff_toNat_le, UInt8.le_iff_toNat_le] at hb
  rw [isTail_iff] at hc
  rcases announced_cases ha with ⟨hno, -⟩ | ⟨-, rfl, rfl, hle, hge⟩ | ⟨hno, -⟩
  · exact nomatch hno
  · -- the least and the greatest second byte keep out short forms and surrogates
    have hlow : 0x80 ≤ b.toNat ∧ (a.toNat = 0xE0 → 0xA0 ≤ b.toNat) := by
      have h := hb.1
      split_ifs at h with he
      · exact ⟨Nat.le_trans (by decide) h, fun _ => h⟩
      · exact ⟨h, fun he' => absurd he' he⟩
    have hhigh : b.toNat ≤ 0xBF ∧ (a.toNat = 0xED → b.toNat ≤ 0x9F) := by
      have h := hb.2
      split_ifs at h with he
      · exact ⟨Nat.le_trans h (by decide), fun _ => h⟩
      · exact ⟨h, fun he' => absurd he' he⟩
    have hn := toNat_ofNat (n := a.toNat % 0x10 * 0x1000 + payload b * 0x40 + payload c)
      (by rw [payload, payload]; omega)
    have hv : (Char.ofNat (a.toNat % 0x10 * 0x1000 + payload b * 0x40 + payload c)).val.toNat =
      (Char.ofNat (a.toNat % 0x10 * 0x1000 + payload b * 0x40 + payload c)).toNat := rfl
    unfold String.utf8EncodeChar
    rw [hv, hn, payload, payload]
    dsimp only
    rw [if_neg (by omega), if_neg (by omega), if_pos (by omega), byte_eq (a := a) (by omega),
      byte_eq (a := b) (by omega), byte_eq (a := c) (by omega)]
  · exact nomatch hno

lemma encodeChar_four (ha : announced a = some (3, low, high)) (hb : low ≤ b ∧ b ≤ high)
    (hc : isTail c = true) (hd : isTail d = true) :
    String.utf8EncodeChar (Char.ofNat (a.toNat % 0x08 * 0x40000 + payload b * 0x1000 +
      payload c * 0x40 + payload d)) = [a, b, c, d] := by
  rw [UInt8.le_iff_toNat_le, UInt8.le_iff_toNat_le] at hb
  rw [isTail_iff] at hc hd
  rcases announced_cases ha with ⟨hno, -⟩ | ⟨hno, -⟩ | ⟨-, rfl, rfl, hle, hge⟩
  · exact nomatch hno
  · exact nomatch hno
  · have hlow : 0x80 ≤ b.toNat ∧ (a.toNat = 0xF0 → 0x90 ≤ b.toNat) := by
      have h := hb.1
      split_ifs at h with he
      · exact ⟨Nat.le_trans (by decide) h, fun _ => h⟩
      · exact ⟨h, fun he' => absurd he' he⟩
    have hhigh : b.toNat ≤ 0xBF ∧ (a.toNat = 0xF4 → b.toNat ≤ 0x8F) := by
      have h := hb.2
      split_ifs at h with he
      · exact ⟨Nat.le_trans h (by decide), fun _ => h⟩
      · exact ⟨h, fun he' => absurd he' he⟩
    have hn := toNat_ofNat (n := a.toNat % 0x08 * 0x40000 + payload b * 0x1000 +
      payload c * 0x40 + payload d) (by rw [payload, payload, payload]; omega)
    have hv : (Char.ofNat (a.toNat % 0x08 * 0x40000 + payload b * 0x1000 + payload c * 0x40 +
      payload d)).val.toNat = (Char.ofNat (a.toNat % 0x08 * 0x40000 + payload b * 0x1000 +
      payload c * 0x40 + payload d)).toNat := rfl
    unfold String.utf8EncodeChar
    rw [hv, hn, payload, payload, payload]
    dsimp only
    rw [if_neg (by omega), if_neg (by omega), if_neg (by omega), byte_eq (a := a) (by omega),
      byte_eq (a := b) (by omega), byte_eq (a := c) (by omega), byte_eq (a := d) (by omega)]

/-- A broken piece spells no text. -/
lemma mapM_broken (bytes : Bytes) (ps : List Piece) (cs : List Char) :
    (Piece.broken bytes :: ps).mapM Piece.char? ≠ some cs := by
  rw [List.mapM_cons]
  intro h
  exact nomatch h

/-- A character and the bytes that spell it are followed by the same. -/
lemma flatMap_char {c : Char} {front : Bytes} {ps : List Piece}
    (hfront : String.utf8EncodeChar c = front)
    (ih : ∀ cs, ps.mapM Piece.char? = some cs → cs.flatMap String.utf8EncodeChar = rest)
    (cs : List Char) (h : (Piece.char c :: ps).mapM Piece.char? = some cs) :
    cs.flatMap String.utf8EncodeChar = front ++ rest := by
  rw [List.mapM_cons] at h
  obtain ⟨c', hc, hrest⟩ := Option.bind_eq_some_iff.1 h
  obtain ⟨cs', hcs, hlast⟩ := Option.bind_eq_some_iff.1 hrest
  rw [← Option.some.inj hlast, List.flatMap_cons, ih cs' hcs, ← Option.some.inj hc, hfront]

/-- Bytes of which every piece is a character are the bytes of these characters. -/
lemma flatMap_encodeChar (bytes : Bytes) :
    ∀ cs, (pieces bytes).mapM Piece.char? = some cs →
      cs.flatMap String.utf8EncodeChar = bytes := by
  -- the cases are those of `pieces`: characters of one to four bytes, and broken pieces
  fun_induction pieces bytes with
  | case1 =>
    intro cs h
    rw [← Option.some.inj h]
    rfl
  | case2 a rest h ih => exact flatMap_char (encodeChar_one h) ih
  | case6 a h low high b rest hb ha ih =>
    exact flatMap_char (encodeChar_two ha (not_not.1 hb)) ih
  | case9 a h low high b hb c rest hc ha hcount ih =>
    exact flatMap_char (encodeChar_three ha (not_not.1 hb) (by simpa using hc)) ih
  | case12 a h count low high ha b hb h1 c hc h2 d rest hd ih =>
    have hcount : count = 3 := by
      rcases announced_cases ha with ⟨hno, -⟩ | ⟨hno, -⟩ | ⟨hthree, -⟩
      · exact absurd hno h1
      · exact absurd hno h2
      · exact hthree
    subst hcount
    exact flatMap_char
      (encodeChar_four ha (not_not.1 hb) (by simpa using hc) (by simpa using hd)) ih
  | _ =>
    intro cs h
    exact absurd h (mapM_broken _ _ cs)

/-- Bytes that spell a text are the ones that it is spelled with. -/
theorem encode_of_decode? {bytes : Bytes} {s : String} (h : decode? bytes = some s) :
    encode s = bytes := by
  obtain ⟨cs, hcs, hs⟩ := Option.map_eq_some_iff.1 h
  rw [← hs, encode, String.toList_ofList]
  exact flatMap_encodeChar bytes cs hcs

end PackageStaging.Utf8
