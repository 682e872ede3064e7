/-
# The program on a system

Answers the calls of a program from the system that it runs on, and starts the program with the
words of its command line.  Requests go out unencrypted; without a connection the server counts as
unreachable.
-/
import PackageStaging.CommandLine
import PackageStaging.Http.Transfer
import Std.Async.DNS
import Std.Async.TCP
import Std.Time.DateTime.Timestamp

namespace PackageStaging.OnSystem

/-- The fault that an error of the system stands for. -/
def faultOf : IO.Error → SystemFault
  | .noFileOrDirectory .. => .noSuchEntry
  | .alreadyExists .. => .alreadyExists
  | .inappropriateType _ code text => if code = 20 then .notADirectory
      else if code = 21 then .isADirectory else .other code.toNat text
  | .permissionDenied _ code text | .resourceExhausted _ code text | .invalidArgument _ code text
  | .noSuchThing _ code text | .otherError code text | .resourceBusy code text
  | .unsatisfiedConstraints code text | .unsupportedOperation code text => .other code.toNat text
  | e => .other 0 (toString e)

/-- Does something with the name of a file, which has to be a text. -/
def withName {α : Type} (p : Path) (act : String → IO α) : IO (Except SystemFault α) := do
  match p.text? with
  | none => return .error .noSuchEntry
  | some name =>
    try return .ok (← act name)
    catch e => return .error (faultOf e)

/-- What is known about the place that a path leads to. -/
def metadataOf (p : Path) : IO (Except SystemFault IO.FS.Metadata) :=
  withName p fun name =>
    let entry : IO.FS.DirEntry := ⟨"", name⟩
    entry.path.metadata

/-- The content of a file. -/
def contentOf (p : Path) : IO (Except SystemFault Bytes) :=
  withName p fun name => return (← IO.FS.readBinFile name).data.toList

/-- The time. -/
def now : IO Timestamp := do
  let t := (← Std.Time.Timestamp.now).toNanosecondsSinceUnixEpoch.val
  return ⟨t / 1000000000, (t % 1000000000).toNat⟩

/-- Asks the one who sits at the terminal, if there is one.  A secret is not shown. -/
def ask (label : String) (isSecret : Bool) : IO (Option String) := do
  let input ← IO.getStdin
  if !(← input.isTty) then return none
  let output ← IO.getStdout
  output.putStr (label ++ ": " ++ (if isSecret then "\x1b[8m" else ""))
  output.flush
  let line ← input.getLine
  if isSecret then output.putStr "\x1b[0m"
  return some (line.dropEndWhile fun c => c = '\n' || c = '\r').toString

/-! ### The network -/

open Std.Async Std.Net

/-- All that comes back before the connection is closed. -/
partial def received (connection : TCP.Socket.Client) (before : Bytes) : Async Bytes := do
  match ← connection.recv? 65536 with
  | some more => received connection (before ++ more.data.toList)
  | none => return before

/-- The places at which a host of an address may be found. -/
def placesOf (u : Url) : Async (List SocketAddress) := do
  match u.authority with
  | none => return []
  | some a =>
    let port := UInt16.ofNat (a.port.getD 80)
    let name := String.ofList (a.host.text.filter fun c => c ≠ '[' && c ≠ ']')
    let found ← DNS.getAddrInfo name ""
    return found.toList.map fun
      | .v4 place => .v4 ⟨place, port⟩
      | .v6 place => .v6 ⟨place, port⟩

/-- Sends bytes to the first place that takes them, and gives what comes back. -/
def exchange (message : Bytes) : List SocketAddress → IO (Option Bytes)
  | [] => return none
  | place :: places => do
    let connection ← TCP.Socket.Client.mk
    let connected ← try (connection.connect place).block; pure true catch _ => pure false
    if !connected then exchange message places
    else
      try
        (connection.send ⟨message.toArray⟩).block
        return some (← (received connection []).block)
      catch _ => return some []

/-- The contents of files, which all have to be there. -/
def contentsOf : List Path → IO (Except SystemFault (List (Path × Bytes)))
  | [] => return .ok []
  | p :: ps => do
    match ← contentOf p, ← contentsOf ps with
    | .ok content, .ok files => return .ok ((p, content) :: files)
    | .error f, _ | _, .error f => return .error f

/-- Sends a request.  Each read of a file returns as much as it can. -/
def deliver (r : Http.Request) : IO Http.Delivery := do
  match ← contentsOf r.body.paths with
  | .error _ => return .unanswered []
  | .ok files =>
    let read (p : Path) : Bytes := ((files.find? fun f => f.1 = p).map (·.2)).getD []
    let contents := files.map (·.2)
    let polls := contents.foldr (fun c n => c.length / Http.bufferSize + 2 + n) 0
    let reads := Http.readAll contents (List.replicate polls Http.bufferSize)
    let chance ← IO.rand 0 0x3FFFFFFFFFFFFFFF
    let boundary := "form-" ++ toString (← now).nanos ++ "-" ++ toString chance
    let places ← try (placesOf r.url).block catch _ => pure []
    if r.url.scheme ≠ "http".toList then return .unreachable
    match ← exchange (r.bytes boundary read) places with
    | none => return .unreachable
    | some back =>
      match Http.Reply.ofBytes? back with
      | none => return .unanswered reads
      | some reply => return .answered reads reply

/-! ### Programs -/

/-- The answer of the system to a call. -/
def answer : (c : Call) → IO c.Answer
  | .readFile p => contentOf p
  | .writeFile p content =>
    withName p fun name => IO.FS.writeBinFile name ⟨content.toArray⟩
  | .replaceFile source target => do
    match target.text? with
    | none => return .error .noSuchEntry
    | some name => withName source fun draft => IO.FS.rename draft name
  | .removeFile p => withName p fun name => IO.FS.removeFile name
  | .makeDirectory p => withName p fun name => IO.FS.createDir name
  | .isDirectory p => return match ← metadataOf p with
    | .ok m => m.type == .dir
    | .error _ => false
  | .isFile p => return match ← metadataOf p with
    | .ok m => m.type == .file
    | .error _ => false
  | .size p => return (← metadataOf p).map fun m => m.byteSize.toNat
  | .workingDirectory => return .ofString (← IO.currentDir).toString
  | .environment name => IO.getEnv name
  | .now => now
  | .print .standard text => do
    let output ← IO.getStdout
    output.putStr text
    output.flush
  | .print .diagnostic text => do
    let output ← IO.getStderr
    output.putStr text
    output.flush
  | .prompt label isSecret => ask label isSecret
  | .send r => deliver r

/-- Runs a program. -/
def run {α : Type} : Program α → IO α
  | .done a => return a
  | .call c next => do
    let a ← answer c
    run (next a)

end PackageStaging.OnSystem

open PackageStaging in
/-- Runs the program with the words behind its name, and gives its exit code. -/
def main (words : List String) : IO UInt32 := do
  let code ← OnSystem.run (CommandLine.program (words.map Utf8.encode))
  return UInt32.ofNat code
