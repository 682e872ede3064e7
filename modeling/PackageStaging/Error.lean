/-
# Errors

The causes for which staging, encoding or pushing fails, and their wording in one place,
`Error.message`.
-/
import PackageStaging.Json.Fault
import PackageStaging.Upload

namespace PackageStaging

/-- Why the operating system refuses something. -/
inductive SystemFault where
  | noSuchEntry
  | alreadyExists
  | notADirectory
  | isADirectory
  | nameTooLong
  /-- Anything else, by its number and in words. -/
  | other (number : Nat) (text : String)
deriving DecidableEq, Repr

/-- The number of the fault. -/
def SystemFault.code : SystemFault → Nat
  | .noSuchEntry => 2
  | .alreadyExists => 17
  | .notADirectory => 20
  | .isADirectory => 21
  | .nameTooLong => 36
  | .other number _ => number

/-- The wording of the fault. -/
def SystemFault.message (f : SystemFault) : String :=
  let text := match f with
    | .noSuchEntry => "No such file or directory"
    | .alreadyExists => "File exists"
    | .notADirectory => "Not a directory"
    | .isADirectory => "Is a directory"
    | .nameTooLong => "File name too long"
    | .other _ text => text
  text ++ " (os error " ++ toString f.code ++ ")"

/-- A failure to read or write. -/
inductive IoFault where
  /-- The operating system refuses. -/
  | system (fault : SystemFault)
  /-- A path that should lead to a file does not. -/
  | noSuchFile (path : Path)
  /-- Anything else, in words. -/
  | other (text : String)
deriving DecidableEq, Repr

/-- The wording of the failure. -/
def IoFault.message : IoFault → String
  | .system f => f.message
  | .noSuchFile p => "no such file: " ++ p.display
  | .other text => text

/-- A failure of a request before a usable answer is there. -/
inductive HttpFault where
  /-- The request cannot be put together, because a header would hold a control character. -/
  | unbuildable
  /-- Requests to such an address cannot be sent. -/
  | unsupported (url : String)
  /-- No answer came back. -/
  | unanswered (url : String)
  /-- The body of the answer is not what was expected. -/
  | undecodable
deriving DecidableEq, Repr

/-- The wording of the failure. -/
def HttpFault.message : HttpFault → String
  | .unbuildable => "builder error"
  | .unsupported url => "builder error for url (" ++ url ++ ")"
  | .unanswered url => "error sending request for url (" ++ url ++ ")"
  | .undecodable => "error decoding response body"

/-- Why an operation failed. -/
inductive Error where
  /-- An upload lacks something; nothing has been sent. -/
  | missingFields (package : String) (missing : List Requirement)
  /-- A package is in more than one bucket of a commit. -/
  | conflictingActions (package : String)
  /-- A section lacks one of its fields. -/
  | incompleteSection (given : String)
  /-- A section is not on the server. -/
  | sectionNotFound (given : String)
  /-- Something that should be taken out of the staging area is not in it. -/
  | packageNotStaged (given : String)
  /-- Another push is running. -/
  | pushInFlight
  /-- The server refuses the credentials. -/
  | unauthorized
  /-- There is no session. -/
  | notLoggedIn
  /-- The server reports a failure. -/
  | backend (report : String)
  /-- A request failed. -/
  | http (fault : HttpFault)
  /-- The configuration cannot be used. -/
  | config (complaint : String)
  /-- A list of staged commits is no staging area. -/
  | parse (complaint : String)
  /-- A JSON document cannot be read or written. -/
  | json (fault : Json.Fault)
  /-- A file cannot be read or written. -/
  | io (fault : IoFault)
  /-- A failure of the program itself. -/
  | internal (complaint : String)
deriving DecidableEq, Repr

namespace Error

/-- The wording of an error. -/
def message : Error → String
  | .missingFields package missing =>
    "Missing fields for package " ++ package ++ ": "
      ++ ", ".intercalate (missing.map Requirement.label)
  | .conflictingActions package => "commit contains duplicate package name: " ++ package
  | .incompleteSection given => "incomplete section: " ++ given
  | .sectionNotFound given => "section not found: " ++ given
  | .packageNotStaged given => "package not staged: " ++ given
  | .pushInFlight => "a push is already in progress"
  | .unauthorized => "not authorized, run `bxt-stage login` again"
  | .notLoggedIn => "not logged in, run `bxt-stage login` first"
  | .backend report => "server error: " ++ report
  | .http fault => "HTTP error: " ++ fault.message
  | .config complaint => "config error: " ++ complaint
  | .parse complaint => "parse error: " ++ complaint
  | .json fault => "JSON error: " ++ fault.message
  | .io fault => "I/O error: " ++ fault.message
  | .internal complaint => "internal error: " ++ complaint

/-- The error of a package that is not staged in a section. -/
def notStagedIn (name : String) (s : SectionAddress) : Error :=
  .packageNotStaged (name ++ " in " ++ s.text)

/-- The error of a section in which nothing is staged. -/
def nothingStagedIn (s : SectionAddress) : Error := .packageNotStaged ("nothing in " ++ s.text)

/-- The error of a list in which a section stands twice. -/
def stagedTwice (k : SectionKey) : Error := .parse (k.text ++ " is staged twice")

/-- The error of a list in which a section has nothing to do. -/
def emptyCommit (k : SectionKey) : Error := .parse ("empty commit for " ++ k.text)

end Error

end PackageStaging
