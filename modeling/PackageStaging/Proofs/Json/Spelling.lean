/-
# The texts that spell a value

A value is written in two ways, without any space and with a line for each member.  `Spells` is
the relation between a value and its texts that covers both: it leaves open what blank stands
before an element or a member, behind a colon and before a closing bracket.  What is shown of a
reader for every text that spells a value (`Reads`, in the next module) holds for both writers.
-/
import Mathlib.Tactic.Lemma
import PackageStaging.Json.Lexeme
import PackageStaging.Json.Value

namespace PackageStaging.Json

/-- Characters that may stand between the words of a document. -/
def Blank (b : List Char) : Prop := ∀ c ∈ b, isSpace (some c) = true

lemma blank_nil : Blank [] := fun _ h => absurd h List.not_mem_nil

lemma blank_newLine (depth : Nat) : Blank (newLine depth) := by
  intro c hc
  rcases List.mem_cons.1 hc with rfl | hc
  · rfl
  · rw [List.eq_of_mem_replicate hc]
    rfl

lemma blank_gap : Blank [' '] := by
  intro c hc
  rw [List.mem_singleton.1 hc]
  rfl

mutual

/-- The texts that spell a value. -/
inductive Spells : Value → List Char → Prop
  | null : Spells .null ['n', 'u', 'l', 'l']
  | boolean (b : Bool) : Spells (.boolean b) (writtenBoolean b)
  | text (s : String) : Spells (.text s) (writtenString s)
  | list {vs : List Value} {body b : List Char} (h : SpellsElements vs body) (hb : Blank b) :
      Spells (.list vs) ('[' :: body ++ b ++ [']'])
  | object {ms : List (String × Value)} {body b : List Char} (h : SpellsMembers ms body)
      (hb : Blank b) : Spells (.object ms) ('\x7b' :: body ++ b ++ ['\x7d'])

/-- The texts of the elements of a list with the commas between them. -/
inductive SpellsElements : List Value → List Char → Prop
  | nil : SpellsElements [] []
  | single {v : Value} {b t : List Char} (hb : Blank b) (ht : Spells v t) :
      SpellsElements [v] (b ++ t)
  | cons {v w : Value} {vs : List Value} {b t rest : List Char} (hb : Blank b) (ht : Spells v t)
      (h : SpellsElements (w :: vs) rest) : SpellsElements (v :: w :: vs) (b ++ t ++ ',' :: rest)

/-- The texts of the members of an object with the commas between them. -/
inductive SpellsMembers : List (String × Value) → List Char → Prop
  | nil : SpellsMembers [] []
  | single {k : String} {v : Value} {b g t : List Char} (hb : Blank b) (hg : Blank g)
      (ht : Spells v t) : SpellsMembers [(k, v)] (b ++ writtenString k ++ ':' :: (g ++ t))
  | cons {k : String} {v : Value} {m : String × Value} {ms : List (String × Value)}
      {b g t rest : List Char} (hb : Blank b) (hg : Blank g) (ht : Spells v t)
      (h : SpellsMembers (m :: ms) rest) :
      SpellsMembers ((k, v) :: m :: ms) (b ++ writtenString k ++ ':' :: (g ++ t) ++ ',' :: rest)

end

/-! ### The two ways of writing -/

mutual

/-- Without any space, a value is spelled. -/
lemma spells_compact : ∀ v : Value, Spells v v.compact
  | .null => .null
  | .boolean b => .boolean b
  | .text s => .text s
  | .list vs => by
    have h := Spells.list (spellsElements_compact vs) blank_nil
    rwa [List.append_nil] at h
  | .object ms => by
    have h := Spells.object (spellsMembers_compact ms) blank_nil
    rwa [List.append_nil] at h

lemma spellsElements_compact : ∀ vs : List Value, SpellsElements vs (compactElements vs)
  | [] => .nil
  | [v] => .single blank_nil (spells_compact v)
  | v :: w :: vs => .cons blank_nil (spells_compact v) (spellsElements_compact (w :: vs))

lemma spellsMembers_compact : ∀ ms : List (String × Value), SpellsMembers ms (compactMembers ms)
  | [] => .nil
  | [(_, v)] => .single blank_nil blank_nil (spells_compact v)
  | (_, v) :: m :: ms =>
    .cons blank_nil blank_nil (spells_compact v) (spellsMembers_compact (m :: ms))

end

mutual

/-- With a line for each member, a value is spelled. -/
lemma spells_prettyAt : ∀ (depth : Nat) (v : Value), Spells v (v.prettyAt depth)
  | _, .null => .null
  | _, .boolean b => .boolean b
  | _, .text s => .text s
  | _, .list [] => .list .nil blank_nil
  | depth, .list (v :: vs) =>
    .list (spellsElements_pretty (depth + 1) (v :: vs)) (blank_newLine depth)
  | _, .object [] => .object .nil blank_nil
  | depth, .object (m :: ms) =>
    .object (spellsMembers_pretty (depth + 1) (m :: ms)) (blank_newLine depth)

lemma spellsElements_pretty :
    ∀ (depth : Nat) (vs : List Value), SpellsElements vs (prettyElements depth vs)
  | _, [] => .nil
  | depth, [v] => .single (blank_newLine depth) (spells_prettyAt depth v)
  | depth, v :: w :: vs =>
    .cons (blank_newLine depth) (spells_prettyAt depth v) (spellsElements_pretty depth (w :: vs))

lemma spellsMembers_pretty :
    ∀ (depth : Nat) (ms : List (String × Value)), SpellsMembers ms (prettyMembers depth ms)
  | _, [] => .nil
  | depth, [(_, v)] => .single (blank_newLine depth) blank_gap (spells_prettyAt depth v)
  | depth, (_, v) :: m :: ms =>
    .cons (blank_newLine depth) blank_gap (spells_prettyAt depth v)
      (spellsMembers_pretty depth (m :: ms))

end

lemma spells_pretty (v : Value) : Spells v v.pretty := spells_prettyAt 0 v

end PackageStaging.Json
