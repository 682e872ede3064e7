/-
# Reading objects

An object is read member by member, each of which changes what has been collected.  `TakesAll`
follows the collection through the members; from it come the lemmas for maps from names to values
(`reads_namedValues`) and for records (`reads_record`), and for whole documents (`decode_of_reads`).
-/
import PackageStaging.Proofs.Json.Reading

namespace PackageStaging.Json

variable {α σ : Type} {r : Reader α} {v : Value} {a : α} {state state' : σ}
  {member : σ → String → Source → Except Snag (σ × Source)}

lemma colon_cons (s : Source) : colon (some ':' :: s) = .ok s := by
  rw [colon, skipSpace_of_head rfl]
  rfl

/-- What stands before a key: nothing before the first one, else a comma. -/
lemma nextKey_written {b : List Char} (hb : Blank b) (first : Bool) (k : String) (rest : Source) :
    nextKey first ((comma first ++ (b ++ writtenString k)).map some ++ rest) =
      .ok (some ((k.toList.flatMap escapedChar ++ ['"']).map some ++ rest)) := by
  have hcut : (b ++ writtenString k).map some ++ rest =
      b.map some ++ some '"' :: ((k.toList.flatMap escapedChar ++ ['"']).map some ++ rest) := by
    simp [writtenString]
  have hspace : skipSpace ((b ++ writtenString k).map some ++ rest) =
      some '"' :: ((k.toList.flatMap escapedChar ++ ['"']).map some ++ rest) := by
    rw [hcut, skipSpace_blank hb]
    exact skipSpace_of_head rfl
  cases first with
  | true =>
    change nextKey true ((b ++ writtenString k).map some ++ rest) = _
    rw [nextKey, hspace]
    rfl
  | false =>
    change nextKey false (some ',' :: ((b ++ writtenString k).map some ++ rest)) = _
    rw [nextKey, skipSpace_of_head rfl]
    simp only [reduceIte, Option.some.injEq, Char.reduceEq, Bool.false_eq_true]
    rw [hspace]
    rfl

lemma nextKey_none {b : List Char} (hb : Blank b) (first : Bool) (rest : Source) :
    nextKey first (b.map some ++ some '\x7d' :: rest) = .ok none := by
  rw [nextKey, skipSpace_blank hb]
  rfl

lemma afterBrace_brace {b : List Char} (hb : Blank b) (rest : Source) :
    afterBrace (b.map some ++ some '\x7d' :: rest) = rest := by
  rw [afterBrace, skipSpace_blank hb]
  rfl

/-- A member is taken in: from one collection to the next. -/
def Takes (member : σ → String → Source → Except Snag (σ × Source)) (state : σ)
    (m : String × Value) (state' : σ) : Prop :=
  ∀ g t rest, Blank g → Spells m.2 t →
    member state m.1 (some ':' :: ((g ++ t).map some ++ rest)) = .ok (state', rest)

/-- All members are taken in, one after the other. -/
inductive TakesAll (member : σ → String → Source → Except Snag (σ × Source)) :
    σ → List (String × Value) → σ → Prop
  | nil {state : σ} : TakesAll member state [] state
  | cons {state next last : σ} {m : String × Value} {ms : List (String × Value)}
      (h : Takes member state m next) (hs : TakesAll member next ms last) :
      TakesAll member state (m :: ms) last

lemma members_end {b : List Char} (hb : Blank b) (fuel : Nat) (first : Bool) (state : σ)
    (rest : Source) :
    members member (fuel + 1) first state (b.map some ++ some '\x7d' :: rest) =
      .ok (state, rest) := by
  rw [members, nextKey_none hb]
  change Except.ok (state, afterBrace _) = _
  rw [afterBrace_brace hb]

/-- One member, with the rest of the object behind it. -/
lemma members_cons {b : List Char} (hb : Blank b) {k : String} {g t : List Char} (hg : Blank g)
    (ht : Spells v t) (h : Takes member state (k, v) state') (fuel : Nat) (first : Bool)
    (rest : Source) :
    members member (fuel + 1) first state
        ((comma first ++ (b ++ writtenString k)).map some ++
          some ':' :: ((g ++ t).map some ++ rest)) =
      members member fuel false state' rest := by
  rw [members, nextKey_written hb]
  change (stringTail [] true _ >>= _) = _
  rw [stringTail_written]
  change (member state k _ >>= _) = _
  have htake := h g t rest hg ht
  rw [htake]
  rfl

lemma members_spells {ms : List (String × Value)} (hall : TakesAll member state ms state')
    {body b : List Char} (hbody : SpellsMembers ms body) (hms : ms ≠ []) (hb : Blank b)
    {fuel : Nat} (hfuel : ms.length < fuel) (first : Bool) (rest : Source) :
    members member fuel first state
        ((comma first ++ (body ++ b)).map some ++ some '\x7d' :: rest) = .ok (state', rest) := by
  -- as for elements, the collection being what the members before have made
  induction hall generalizing body fuel first with
  | nil => exact absurd rfl hms
  | @cons state next last m ms h hs ih =>
    obtain ⟨n, rfl⟩ : ∃ n, fuel = n + 1 := ⟨fuel - 1, by omega⟩
    rw [List.length_cons] at hfuel
    cases hbody with
    | @single k v b' g t hb' hg ht =>
      have hcut : (comma first ++ (b' ++ writtenString k ++ ':' :: (g ++ t) ++ b)).map some ++
          some '\x7d' :: rest = (comma first ++ (b' ++ writtenString k)).map some ++
          some ':' :: ((g ++ t).map some ++ (b.map some ++ some '\x7d' :: rest)) := by
        simp
      obtain ⟨m, rfl⟩ : ∃ m, n = m + 1 := ⟨n - 1, by omega⟩
      rw [hcut, members_cons hb' hg ht h, members_end hb]
      cases hs
      rfl
    | @cons k v _ ms b' g t tail hb' hg ht htail =>
      have hcut : (comma first ++ (b' ++ writtenString k ++ ':' :: (g ++ t) ++ ',' :: tail ++
          b)).map some ++ some '\x7d' :: rest = (comma first ++ (b' ++ writtenString k)).map some ++
          some ':' :: ((g ++ t).map some ++
            ((comma false ++ (tail ++ b)).map some ++ some '\x7d' :: rest)) := by
        simp [comma]
      rw [hcut, members_cons hb' hg ht h]
      exact ih htail (List.cons_ne_nil _ _) (by omega) false

/-- There is at least one character to a member. -/
lemma SpellsMembers.length_le {ms : List (String × Value)} {body : List Char}
    (h : SpellsMembers ms body) : ms.length ≤ body.length := by
  induction ms generalizing body with
  | nil => exact Nat.zero_le _
  | cons m ms ih =>
    cases h with
    | single hb hg ht =>
      simp only [List.length_append, List.length_cons, List.length_nil]
      omega
    | cons hb hg ht h =>
      have hrest := ih h
      simp only [List.length_append, List.length_cons] at hrest ⊢
      omega

/-- An object behind its opening brace. -/
lemma members_object {ms : List (String × Value)} (hall : TakesAll member state ms state')
    {body b : List Char} (hbody : SpellsMembers ms body) (hb : Blank b) (rest : Source) :
    members member (((body ++ b ++ ['\x7d']).map some ++ rest).length + 1) true state
      ((body ++ b ++ ['\x7d']).map some ++ rest) = .ok (state', rest) := by
  have hcut : (body ++ b ++ ['\x7d']).map some ++ rest =
      (comma true ++ (body ++ b)).map some ++ some '\x7d' :: rest := by
    simp [comma]
  rw [hcut]
  by_cases hms : ms = []
  · subst hms
    cases hall
    cases hbody
    exact members_end hb _ true state rest
  · have hlength := hbody.length_le
    refine members_spells hall hbody hms hb ?_ true rest
    simp
    omega

/-! ### Maps -/

lemma takesAll_named {ms : List (String × Value)} {es : List (String × α)}
    (hall : List.Forall₂ (fun m e => m.1 = e.1 ∧ Reads r m.2 e.2) ms es)
    (read : List (String × α)) :
    TakesAll (fun read key s => do
        let (v, s) ← r (← colon s)
        return ((key, v) :: read, s)) read ms (es.reverse ++ read) := by
  induction hall generalizing read with
  | nil => exact .nil
  | @cons m e ms es h hs ih =>
    obtain ⟨hkey, hvalue⟩ := h
    refine .cons (?_ : Takes _ read m (e :: read)) ?_
    · intro g t rest hg ht
      change (colon _ >>= fun s => r s >>= _) = _
      rw [colon_cons]
      change (r _ >>= _) = _
      rw [hvalue g t rest hg ht, hkey]
      rfl
    · have hrest := ih (e :: read)
      rwa [List.reverse_cons, List.append_assoc]

lemma reads_namedValues {ms : List (String × Value)} {es : List (String × α)}
    (hall : List.Forall₂ (fun m e => m.1 = e.1 ∧ Reads r m.2 e.2) ms es) :
    Reads (namedValues r) (.object ms) es := by
  intro b t rest hb ht
  rw [namedValues, nextValue_spells hb ht]
  cases ht with
  | @object _ body b' hbody hb' =>
    have hread := members_object (takesAll_named hall []) hbody hb' rest
    change (members _ (((body ++ b' ++ ['\x7d']).map some ++ rest).length + 1) true []
      ((body ++ b' ++ ['\x7d']).map some ++ rest) >>= _) = _
    rw [hread]
    change Except.ok ((es.reverse ++ []).reverse, rest) = _
    rw [List.append_nil, List.reverse_reverse]

/-! ### Records -/

/-- A member with a known key that has not been read before. -/
lemma takes_member {rec : Record σ α} {m : Member σ} {k : String}
    (hm : rec.members.find? (fun m => m.key = k) = some m) (hnew : m.present state = false)
    (hread : Reads (m.read state) v state') : Takes rec.takeMember state (k, v) state' := by
  intro g t rest hg ht
  rw [Record.takeMember, hm]
  change (if m.present state = true then _ else _) = _
  rw [hnew]
  change (colon _ >>= _) = _
  rw [colon_cons]
  exact hread g t rest hg ht

lemma reads_record {rec : Record σ α} {ms : List (String × Value)}
    (hall : TakesAll rec.takeMember rec.blank ms state) (hfinish : rec.finish state = .ok a) :
    Reads rec.read (.object ms) a := by
  intro b t rest hb ht
  rw [Record.read, nextValue_spells hb ht]
  cases ht with
  | @object _ body b' hbody hb' =>
    change (members _ (((body ++ b' ++ ['\x7d']).map some ++ rest).length + 1) true rec.blank
      ((body ++ b' ++ ['\x7d']).map some ++ rest) >>= _) = _
    rw [members_object hall hbody hb' rest]
    simp only [bind, Except.bind, hfinish]
    rfl

/-! ### Documents -/

/-- The value of a document is handed to the check. -/
lemma decodeChecked_of_reads {β : Type} (h : Reads r v a) {t : List Char} (ht : Spells v t)
    (check : α → Except String β) :
    decodeChecked r check (t.map some) =
      (check a).mapError fun reason => ⟨.content (.refused reason), none⟩ := by
  have hread := h [] t [] blank_nil ht
  rw [List.nil_append, List.append_nil] at hread
  simp only [decodeChecked, hread]
  cases check a with
  | error reason => rfl
  | ok x => rfl

/-- A value is read back from the text without any space. -/
theorem decode_compactText (h : Reads r v a) :
    decode r (Utf8.sourceOfString v.compactText) = .ok a := by
  rw [Utf8.sourceOfString, Value.compactText, String.toList_ofList]
  exact decodeChecked_of_reads h (spells_compact v) .ok

end PackageStaging.Json
