/-
# The configuration file

The settings that a configuration file may give.  Every one of them may be left out, and there
are no others.  The entries are looked at in the order of the file, and the first that cannot be
used is reported.
-/
import PackageStaging.Toml.Document

namespace PackageStaging.Config

/-- What a configuration file gives. -/
structure Settings where
  serverUrl : Option String
  stateDirectory : Option String
  timeout : Option Nat
deriving DecidableEq, Repr

/-- Why an entry of a configuration file cannot be used. -/
inductive Complaint where
  /-- There is no such setting. -/
  | unknownName (name : String)
  /-- The value is of another type than the wanted one. -/
  | wrongType (found wanted : String)
  /-- The value is a number below zero. -/
  | negative (n : Int)
deriving DecidableEq, Repr

/-- The names of the settings. -/
def names : List String := ["server_url", "state_dir", "timeout_secs"]

/-- The wording of a complaint. -/
def Complaint.message : Complaint → String
  | .unknownName name =>
    "unknown field `" ++ name ++ "`, expected one of "
      ++ ", ".intercalate (names.map fun n => "`" ++ n ++ "`")
  | .wrongType found wanted => "invalid type: " ++ found ++ ", expected " ++ wanted
  | .negative n => "invalid value: integer `" ++ toString n ++ "`, expected u64"

namespace Settings

/-- No settings at all. -/
def none : Settings := ⟨.none, .none, .none⟩

/-- A text; `wanted` is what the message calls it. -/
def textOf (wanted : String) : Toml.Value → Except Complaint String
  | .text s => .ok s
  | v => .error (.wrongType v.description wanted)

/-- A number that is not negative. -/
def numberOf : Toml.Value → Except Complaint Nat
  | .whole n => if 0 ≤ n then .ok n.toNat else .error (.negative n)
  | v => .error (.wrongType v.description "u64")

/-- Takes in one entry. -/
def take (s : Settings) (entry : String × Toml.Value) : Except Complaint Settings :=
  if entry.1 = "server_url" then do
    return { s with serverUrl := ← textOf "a string" entry.2 }
  else if entry.1 = "state_dir" then do
    return { s with stateDirectory := ← textOf "path string" entry.2 }
  else if entry.1 = "timeout_secs" then do
    return { s with timeout := ← numberOf entry.2 }
  else .error (.unknownName entry.1)

/-- The settings in a table. -/
def ofTable (t : Toml.Table) : Except Complaint Settings := t.foldlM take none

end Settings

end PackageStaging.Config
