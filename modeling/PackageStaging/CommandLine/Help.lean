/-
# Help

What the program says about its command line: for all commands, or for one of them.
-/
import PackageStaging.CommandLine.Verb

namespace PackageStaging.CommandLine

/-- The name of the program. -/
def programName : String := "bxt-stage"

/-- The version of the program. -/
def programVersion : String := "0.1.0"

/-- What the program is for. -/
def programAbout : String := "Stage package commits and push them to a bxt server"

/-- The word behind the name that asks for help in place of a verb, and what it does. -/
def helpRow : String × String :=
  ("help", "Print this message or the help of the given subcommand(s)")

/-- A text filled up with spaces. -/
def padded (width : Nat) (s : String) : String :=
  s ++ String.ofList (List.replicate (width - s.length) ' ')

/-- Lines that explain words, with all explanations in one column. -/
def rows (entries : List (String × String)) : List String :=
  let width := (entries.map (·.1.length)).foldl max 0
  entries.map fun (word, about) => "  " ++ padded width word ++ "  " ++ about

/-- A headed block of lines that explain words; there is none without words. -/
def block (heading : String) (entries : List (String × String)) : List String :=
  if entries = [] then [] else ["", heading ++ ":"] ++ rows entries

/-- How an operand is written. -/
def Operand.text (o : Operand) : String :=
  let name := if o.isRequired then "<" ++ o.name ++ ">" else "[" ++ o.name ++ "]"
  if o.isMany then name ++ "..." else name

/-- How an option is written, with its letter if it has one. -/
def Switch.text (s : Switch) : String :=
  let letter := match s.letter? with
    | some c => "-" ++ c.toString ++ ", "
    | none => "    "
  let value := match s.value? with
    | some v => " <" ++ v ++ ">"
    | none => ""
  letter ++ "--" ++ s.name ++ value

/-- How the program is called. -/
def usage (on : Option Verb) : String :=
  let words := match on with
    | none => ["[OPTIONS]", "<COMMAND>"]
    | some v => [v.word, "[OPTIONS]"] ++ v.operands.map Operand.text
  "Usage: " ++ " ".intercalate (programName :: words)

/-- The help on one command, or on all. -/
def helpText (on : Option Verb) : String :=
  let commands := match on with
    | none => block "Commands" (Verb.all.map (fun v => (v.word, v.about)) ++ [helpRow])
    | some v => block "Arguments" (v.operands.map fun o => (o.text, o.about))
  let options := block "Options" ((Switch.allowed on).map fun s => (s.text, s.about))
  "\n".intercalate
    ([(on.map Verb.about).getD programAbout, "", usage on] ++ commands ++ options)

/-- What is said about a line that makes no sense. -/
def misuseText : String :=
  usage none ++ "\n\nFor more information, try '--help'."

end PackageStaging.CommandLine
