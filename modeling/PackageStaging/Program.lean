/-
# Programs

What a program does is a tree: it is done, or it calls the system and goes on with the answer.
The tree says nothing about who answers, so the same program can be run on a real system and on a
`World`, and can be looked at between any two of its calls.
-/
import PackageStaging.Error
import PackageStaging.Http.Message
import PackageStaging.Timestamp

namespace PackageStaging

/-- Where a program prints. -/
inductive Channel where
  | standard
  | diagnostic
deriving DecidableEq, Repr

/-- Something that only the system can do. -/
inductive Call where
  /-- The content of a file. -/
  | readFile (p : Path)
  /-- Puts a content into a file, which is made if it is not there. -/
  | writeFile (p : Path) (content : Bytes)
  /-- Puts a file in the place of another one. -/
  | replaceFile (source target : Path)
  /-- Removes a file. -/
  | removeFile (p : Path)
  /-- Makes a directory in one that is there. -/
  | makeDirectory (p : Path)
  /-- Whether a path leads to a directory. -/
  | isDirectory (p : Path)
  /-- Whether a path leads to a file. -/
  | isFile (p : Path)
  /-- The size of what a path leads to. -/
  | size (p : Path)
  /-- The working directory. -/
  | workingDirectory
  /-- The value of a variable of the environment. -/
  | environment (name : String)
  /-- The time. -/
  | now
  /-- Prints a text. -/
  | print (channel : Channel) (text : String)
  /-- Asks the one who sits at the terminal for a line, which may be a secret. -/
  | prompt (label : String) (isSecret : Bool)
  /-- Sends a request. -/
  | send (r : Http.Request)

/-- What the system answers.  Without a terminal there is nobody who could be asked for a line. -/
abbrev Call.Answer : Call → Type
  | .readFile _ => Except SystemFault Bytes
  | .writeFile _ _ | .replaceFile _ _ | .removeFile _ | .makeDirectory _ => Except SystemFault Unit
  | .isDirectory _ | .isFile _ => Bool
  | .size _ => Except SystemFault Nat
  | .workingDirectory => Path
  | .environment _ => Option String
  | .now => Timestamp
  | .print _ _ => Unit
  | .prompt _ _ => Option String
  | .send _ => Http.Delivery

/-- A program that results in an `α`. -/
inductive Program (α : Type) where
  | done (a : α)
  | call (c : Call) (next : c.Answer → Program α)

namespace Program

variable {α β : Type}

/-- One program after the other. -/
def bind : Program α → (α → Program β) → Program β
  | .done a, f => f a
  | .call c next, f => .call c fun answer => (next answer).bind f

instance : Monad Program where
  pure := .done
  bind := bind

/-- Calls the system and results in its answer. -/
def ask (c : Call) : Program c.Answer := .call c .done

theorem bind_eq (p : Program α) (f : α → Program β) : p >>= f = p.bind f := rfl

@[simp] theorem done_bind (a : α) (f : α → Program β) : (done a).bind f = f a := rfl

@[simp] theorem call_bind (c : Call) (next : c.Answer → Program α) (f : α → Program β) :
    (call c next).bind f = .call c fun answer => (next answer).bind f := rfl

@[simp] theorem bind_done (p : Program α) : p.bind .done = p := by
  induction p with
  | done => rfl
  | call c next ih => simp [ih]

theorem bind_assoc {γ : Type} (p : Program α) (f : α → Program β) (g : β → Program γ) :
    (p.bind f).bind g = p.bind fun a => (f a).bind g := by
  induction p with
  | done => rfl
  | call c next ih => simp [ih]

instance : LawfulMonad Program :=
  LawfulMonad.mk' Program (fun p => bind_done p) (fun _ _ => rfl) fun p f g => bind_assoc p f g

end Program

/-- A program that may fail. -/
abbrev Attempt (α : Type) := ExceptT Error Program α

namespace Attempt

variable {α : Type}

/-- The system's answer, in an attempt that does not fail. -/
def ask (c : Call) : Attempt c.Answer := ExceptT.lift (Program.ask c)

/-- An attempt that has been decided. -/
def ofExcept (r : Except Error α) : Attempt α := ExceptT.mk (.done r)

/-- An attempt that fails. -/
def fail (e : Error) : Attempt α := ofExcept (.error e)

/-- The result, failure included. -/
def outcome (t : Attempt α) : Attempt (Except Error α) := ExceptT.lift t.run

/-- The answer of a call that the system may refuse. -/
def ofSystem (r : Except SystemFault α) : Attempt α :=
  ofExcept (r.mapError fun f => .io (.system f))

end Attempt

end PackageStaging
