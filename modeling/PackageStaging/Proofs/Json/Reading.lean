/-
# Reading what was written

A reader reads the text of a value back: `Reads r v a` says that `r` gives `a` for every text that
spells `v`, whatever blank stands before it and whatever follows.  There is one lemma for each
way in which readers are put together, so that the reader of a type is followed by the lemma
that it reads the values of that type.
-/
import Mathlib.Data.List.Forall2
import PackageStaging.Json.Reader
import PackageStaging.Proofs.Json.Spelling
import PackageStaging.Proofs.Outcome

namespace PackageStaging.Json

/-! ### Space -/

lemma skipSpace_of_head {u : Option Char} {s : Source} (hu : isSpace u = false) :
    skipSpace (u :: s) = u :: s := by
  rw [skipSpace, List.dropWhile_cons_of_neg (by simp [hu])]

lemma skipSpace_blank {b : List Char} (hb : Blank b) (s : Source) :
    skipSpace (b.map some ++ s) = skipSpace s := by
  induction b with
  | nil => rfl
  | cons c b ih =>
    have hc : isSpace (some c) = true := hb c (.head _)
    rw [List.map_cons, List.cons_append, skipSpace, List.dropWhile_cons_of_pos hc]
    exact ih fun c' hc' => hb c' (.tail _ hc')

/-! ### Strings -/

lemma hexNumber_hexDigit : ∀ n < 0x20, hexNumber (some '0') (some '0') (some (hexDigit (n / 16)))
    (some (hexDigit (n % 16))) = some n := by
  decide

lemma stringTail_short {e d : Char} (he : e ≠ 'u') (hd : shortEscape (some e) = some d)
    (read : List Char) (rest : Source) :
    stringTail read true (some '\\' :: some e :: rest) = stringTail (d :: read) true rest := by
  rw [stringTail.eq_def]
  simp [he, hd]

lemma stringTail_plain {c : Char} (hq : c ≠ '"') (hb : c ≠ '\\') (hc : ¬ c.toNat < 0x20)
    (read : List Char) (rest : Source) :
    stringTail read true (some c :: rest) = stringTail (c :: read) true rest := by
  rw [stringTail.eq_def]
  simp only [if_neg hq, if_neg hb, if_neg hc]

lemma stringTail_hex {n : Nat} (hn : n < 0x20) (read : List Char) (rest : Source) :
    stringTail read true (some '\\' :: some 'u' :: some '0' :: some '0' ::
      some (hexDigit (n / 16)) :: some (hexDigit (n % 16)) :: rest) =
    stringTail (Char.ofNat n :: read) true rest := by
  have htrail : isTrailing n = false := by simp [isTrailing]; omega
  have hlead : isLeading n = false := by simp [isLeading]; omega
  rw [stringTail.eq_def]
  simp [hexNumber_hexDigit n hn, htrail, hlead]

/-- A character that was written is read. -/
lemma stringTail_escapedChar (c : Char) (read : List Char) (rest : Source) :
    stringTail read true ((escapedChar c).map some ++ rest) = stringTail (c :: read) true rest := by
  unfold escapedChar
  split_ifs with h1 h2 h3 h4 h5 h6 h7 h8
  · rw [h1]
    exact stringTail_short (by decide) (by decide) read rest
  · rw [h2]
    exact stringTail_short (by decide) (by decide) read rest
  · rw [h3]
    exact stringTail_short (by decide) (by decide) read rest
  · rw [h4]
    exact stringTail_short (by decide) (by decide) read rest
  · rw [h5]
    exact stringTail_short (by decide) (by decide) read rest
  · rw [h6]
    exact stringTail_short (by decide) (by decide) read rest
  · rw [h7]
    exact stringTail_short (by decide) (by decide) read rest
  · have h := stringTail_hex h8 read rest
    rw [Char.ofNat_toNat] at h
    exact h
  · exact stringTail_plain h1 h2 h8 read rest

lemma stringTail_flatMap (cs read : List Char) (rest : Source) :
    stringTail read true ((cs.flatMap escapedChar).map some ++ some '"' :: rest) =
      .ok (String.ofList (read.reverse ++ cs), rest) := by
  induction cs generalizing read with
  | nil =>
    rw [List.append_nil, List.flatMap_nil, List.map_nil, List.nil_append, stringTail.eq_def]
    rfl
  | cons c cs ih =>
    rw [List.flatMap_cons, List.map_append, List.append_assoc, stringTail_escapedChar, ih,
      List.reverse_cons, List.append_assoc]
    rfl

/-- A string that was written is read, behind its opening quote. -/
lemma stringTail_written (s : String) (rest : Source) :
    stringTail [] true ((s.toList.flatMap escapedChar ++ ['"']).map some ++ rest) =
      .ok (s, rest) := by
  rw [List.map_append, List.append_assoc]
  have h := stringTail_flatMap s.toList [] rest
  rw [List.reverse_nil, List.nil_append, String.ofList_toList] at h
  exact h

/-! ### Values -/

/-- The first character of a value as it is written. -/
def opening : Value → Char
  | .null => 'n'
  | .boolean true => 't'
  | .boolean false => 'f'
  | .text _ => '"'
  | .list _ => '['
  | .object _ => '\x7b'

lemma Spells.head {v : Value} {t : List Char} (h : Spells v t) : ∃ t', t = opening v :: t' := by
  cases h with
  | null => exact ⟨_, rfl⟩
  | boolean b =>
    cases b with
    | true => exact ⟨_, rfl⟩
    | false => exact ⟨_, rfl⟩
  | text s => exact ⟨_, rfl⟩
  | list => exact ⟨_, rfl⟩
  | object => exact ⟨_, rfl⟩

/-- The first character of a value is no space and closes nothing. -/
lemma opening_ne (v : Value) : isSpace (some (opening v)) = false ∧ opening v ≠ ']' ∧
    opening v ≠ '\x7d' := by
  cases v with
  | boolean b =>
    cases b with
    | true => decide
    | false => decide
  | _ => exact ⟨rfl, by simp [opening], by simp [opening]⟩

/-- Only `null` begins with its letter. -/
lemma opening_ne_n {v : Value} (hv : v ≠ .null) : opening v ≠ 'n' := by
  cases v with
  | null => exact absurd rfl hv
  | boolean b =>
    cases b with
    | true => decide
    | false => decide
  | _ => simp [opening]

lemma skipSpace_spells {v : Value} {b t : List Char} (hb : Blank b) (ht : Spells v t)
    (rest : Source) : skipSpace ((b ++ t).map some ++ rest) = t.map some ++ rest := by
  obtain ⟨t', rfl⟩ := ht.head
  rw [List.map_append, List.append_assoc, skipSpace_blank hb]
  exact skipSpace_of_head (opening_ne v).1

lemma nextValue_spells {v : Value} {b t : List Char} (hb : Blank b) (ht : Spells v t)
    (rest : Source) : nextValue ((b ++ t).map some ++ rest) = .ok (t.map some ++ rest) := by
  rw [nextValue, skipSpace_spells hb ht]
  obtain ⟨t', rfl⟩ := ht.head
  rfl

/-- The reader gives `a` for every text of the value. -/
def Reads {α : Type} (r : Reader α) (v : Value) (a : α) : Prop :=
  ∀ b t rest, Blank b → Spells v t → r ((b ++ t).map some ++ rest) = .ok (a, rest)

variable {α σ : Type} {r : Reader α} {v : Value} {a : α}

lemma reads_stringAs (wanted s : String) : Reads (stringAs wanted) (.text s) s := by
  intro b t rest hb ht
  rw [stringAs, nextValue_spells hb ht]
  cases ht
  exact stringTail_written s rest

lemma reads_string (s : String) : Reads string (.text s) s := reads_stringAs "a string" s

lemma reads_nullable_null (r : Reader α) : Reads (nullable r) .null none := by
  intro b t rest hb ht
  rw [nullable, skipSpace_spells hb ht]
  cases ht
  rfl

lemma reads_nullable_some (h : Reads r v a) (hv : v ≠ .null) :
    Reads (nullable r) v (some a) := by
  intro b t rest hb ht
  have hread := h [] t rest blank_nil ht
  rw [List.nil_append] at hread
  rw [nullable, skipSpace_spells hb ht]
  obtain ⟨t', rfl⟩ := ht.head
  split
  · next heq => exact absurd (Option.some.inj (List.cons.inj heq).1) (opening_ne_n hv)
  · rw [hread]
    rfl

/-- A reader whose value is worked over. -/
lemma Reads.map {β : Type} (h : Reads r v a) (f : α → β) :
    Reads (fun s => do let (x, s) ← r s; return (f x, s)) v (f a) := by
  intro b t rest hb ht
  change (r _ >>= _) = _
  rw [h b t rest hb ht]
  rfl

/-! ### Lists -/

lemma nextElement_first {b t : List Char} (hb : Blank b) (ht : Spells v t) (rest : Source) :
    nextElement true ((b ++ t).map some ++ rest) = .ok (some (t.map some ++ rest)) := by
  rw [nextElement, skipSpace_spells hb ht]
  obtain ⟨t', rfl⟩ := ht.head
  have hne : some (opening v) ≠ some ']' := fun h => (opening_ne v).2.1 (Option.some.inj h)
  simp only [List.map_cons, List.cons_append, if_neg hne, if_pos]

lemma nextElement_later {b t : List Char} (hb : Blank b) (ht : Spells v t) (rest : Source) :
    nextElement false (some ',' :: ((b ++ t).map some ++ rest)) =
      .ok (some (t.map some ++ rest)) := by
  rw [nextElement, skipSpace_of_head rfl]
  have hspace := skipSpace_spells hb ht rest
  obtain ⟨t', rfl⟩ := ht.head
  have hne : some (opening v) ≠ some ']' := fun h => (opening_ne v).2.1 (Option.some.inj h)
  simp only [reduceIte, Option.some.injEq, Char.reduceEq, Bool.false_eq_true]
  rw [hspace]
  simp only [List.map_cons, List.cons_append, if_neg hne]

lemma nextElement_none {b : List Char} (hb : Blank b) (first : Bool) (rest : Source) :
    nextElement first (b.map some ++ some ']' :: rest) = .ok none := by
  rw [nextElement, skipSpace_blank hb]
  rfl

lemma endList_bracket {b : List Char} (hb : Blank b) (rest : Source) :
    endList (b.map some ++ some ']' :: rest) = .ok rest := by
  rw [endList, skipSpace_blank hb]
  rfl

/-- At the bracket, the elements are complete. -/
lemma elements_end {b : List Char} (hb : Blank b) (fuel : Nat) (first : Bool) (read : List α)
    (rest : Source) :
    elements r (fuel + 1) first read (b.map some ++ some ']' :: rest) =
      .ok (read.reverse, rest) := by
  rw [elements, nextElement_none hb, endList_bracket hb]
  rfl

/-- What stands before an element: nothing before the first one, else a comma. -/
def comma (first : Bool) : List Char := if first then [] else [',']

lemma nextElement_spells {b t : List Char} (hb : Blank b) (ht : Spells v t) (first : Bool)
    (rest : Source) :
    nextElement first ((comma first ++ (b ++ t)).map some ++ rest) =
      .ok (some (t.map some ++ rest)) := by
  cases first with
  | true => exact nextElement_first hb ht rest
  | false => exact nextElement_later hb ht rest

lemma elements_spells {vs : List Value} {as : List α} (hall : List.Forall₂ (Reads r) vs as)
    {body b : List Char} (hbody : SpellsElements vs body) (hvs : vs ≠ []) (hb : Blank b)
    {fuel : Nat} (hfuel : vs.length < fuel) (first : Bool) (read : List α) (rest : Source) :
    elements r fuel first read ((comma first ++ (body ++ b)).map some ++ some ']' :: rest) =
      .ok (read.reverse ++ as, rest) := by
  -- one element is read and the rest stands behind a comma, so `first` is false from then on
  induction hall generalizing body fuel first read with
  | nil => exact absurd rfl hvs
  | @cons v a vs as hv hall ih =>
    obtain ⟨n, rfl⟩ : ∃ n, fuel = n + 1 := ⟨fuel - 1, by omega⟩
    rw [List.length_cons] at hfuel
    cases hbody with
    | @single _ b' t hb' ht =>
      have hnext := nextElement_spells hb' ht first (b.map some ++ some ']' :: rest)
      have hread := hv [] t (b.map some ++ some ']' :: rest) blank_nil ht
      cases hall
      obtain ⟨m, rfl⟩ : ∃ m, n = m + 1 := ⟨n - 1, by omega⟩
      rw [List.nil_append] at hread
      have hcut : (comma first ++ (b' ++ t ++ b)).map some ++ some ']' :: rest =
          (comma first ++ (b' ++ t)).map some ++ (b.map some ++ some ']' :: rest) := by
        simp
      rw [elements, hcut, hnext]
      change (r _ >>= _) = _
      rw [hread]
      change elements r (m + 1) false (a :: read) _ = _
      rw [elements_end hb, List.reverse_cons]
    | @cons _ w vs b' t tail hb' ht htail =>
      have hrest : (comma first ++ (b' ++ t ++ ',' :: tail ++ b)).map some ++ some ']' :: rest =
          (comma first ++ (b' ++ t)).map some ++
            ((comma false ++ (tail ++ b)).map some ++ some ']' :: rest) := by
        simp [comma]
      rw [elements, hrest, nextElement_spells hb' ht]
      change (r _ >>= _) = _
      have hread := hv [] t ((comma false ++ (tail ++ b)).map some ++ some ']' :: rest) blank_nil ht
      rw [List.nil_append] at hread
      rw [hread]
      change elements r n false (a :: read) _ = _
      rw [ih htail (List.cons_ne_nil _ _) (by omega), List.reverse_cons, List.append_assoc]
      rfl

/-- There is at least one character to an element. -/
lemma SpellsElements.length_le {vs : List Value} {body : List Char} (h : SpellsElements vs body) :
    vs.length ≤ body.length := by
  induction vs generalizing body with
  | nil => exact Nat.zero_le _
  | cons v vs ih =>
    cases h with
    | single hb ht =>
      obtain ⟨t', rfl⟩ := ht.head
      simp only [List.length_append, List.length_cons, List.length_nil]
      omega
    | cons hb ht h =>
      have hrest := ih h
      simp only [List.length_append, List.length_cons] at hrest ⊢
      omega

lemma reads_list {vs : List Value} {as : List α} (hall : List.Forall₂ (Reads r) vs as) :
    Reads (list r) (.list vs) as := by
  intro b t rest hb ht
  rw [list, nextValue_spells hb ht]
  cases ht with
  | @list _ body b' hbody hb' =>
    change elements r (((body ++ b' ++ [']']).map some ++ rest).length + 1) true []
      ((body ++ b' ++ [']']).map some ++ rest) = _
    have hcut : (body ++ b' ++ [']']).map some ++ rest =
        (comma true ++ (body ++ b')).map some ++ some ']' :: rest := by
      simp [comma]
    rw [hcut]
    by_cases hvs : vs = []
    · subst hvs
      cases hall
      cases hbody
      exact elements_end hb' _ true [] rest
    · have hlength := hbody.length_le
      refine elements_spells hall hbody hvs hb' ?_ true [] rest
      simp
      omega

end PackageStaging.Json
