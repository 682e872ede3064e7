/-
# The command line

The program as a whole: it reads the words of its command line, loads its configuration and
carries out one command.  Its result is the exit code: 0 if all went well, 1 after an error and 2
if the line made no sense.
-/
import PackageStaging.CommandLine.Help
import PackageStaging.CommandLine.Invocation
import PackageStaging.CommandLine.Remote

namespace PackageStaging.CommandLine

/-- The exit code of a program that did what it was asked to do. -/
def exitDone : Nat := 0

/-- The exit code of a program that failed. -/
def exitFailed : Nat := 1

/-- The exit code of a program that was not called as it has to be. -/
def exitMisused : Nat := 2

/-- Carries out a command. -/
def Command.perform (config : Config) : Command → Attempt Unit
  | .login user => runLogin config user
  | .logout => runLogout config
  | .sections => runSections config
  | .add origin files => runAdd config origin files
  | .delete origin names => runDelete config origin names
  | .copy origin target names => runTransfer config origin target (.copy names)
  | .move origin target names => runTransfer config origin target (.move names)
  | .status => runStatus config
  | .unstage origin names => runUnstage config origin names
  | .clear => runClear config
  | .push => runPush config
  | .sync => runSync config
  | .snap what => runSnap config what

/-- Loads the configuration and carries out the command. -/
def Invocation.perform [Url.Domain.Rules] (i : Invocation) : Attempt Unit := do
  let config ← ExceptT.mk do
    return (← Config.load i.overrides).mapError fun f => .config f.message
  i.command.perform config

/-- Says why there is no command to carry out, and gives the exit code. -/
def Stop.answer : Stop → Program Nat
  | .misuse => do
    Program.ask (.print .diagnostic (misuseText ++ "\n"))
    return exitMisused
  | .help on => do
    Program.ask (.print .standard (helpText on ++ "\n"))
    return exitDone
  | .version => do
    Program.ask (.print .standard (programName ++ " " ++ programVersion ++ "\n"))
    return exitDone

/-- The program, given the words behind its name. -/
def program [Url.Domain.Rules] (words : List Bytes) : Program Nat := do
  match Invocation.ofWords words with
  | .error stop => stop.answer
  | .ok invocation =>
    match ← invocation.perform.run with
    | .ok () => return exitDone
    | .error e =>
      Program.ask (.print .diagnostic ("Error: " ++ e.message ++ "\n"))
      return exitFailed

end PackageStaging.CommandLine
