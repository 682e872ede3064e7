/-
# Many pushes on one coordinator

Pushes that share a coordinator, each with its own staging area, and everything that may happen
to them in any order.
-/
import PackageStaging.Push.Stage

namespace PackageStaging

/-- A coordinator and the pushes that were started on it, in the order of their start. -/
structure Crowd where
  coordinator : Coordinator
  pushes : List Push

/-- Something that happens on a coordinator. -/
inductive Occurrence where
  /-- A push of a staging area is started. -/
  | start (area : StagingArea)
  /-- Something happens to the push of this number. -/
  | to (push : Nat) (h : Happening)

namespace Crowd

/-- An idle coordinator without pushes. -/
def empty : Crowd := ⟨.idle, []⟩

/-- The number of the push that is started next. -/
def next (c : Crowd) : Nat := c.pushes.length

/-- The push of a number. -/
def push? (c : Crowd) (i : Nat) : Option Push := c.pushes[i]?

/-- What becomes of the pushes and their coordinator when something happens. -/
def step (c : Crowd) : Occurrence → Crowd
  | .start area => { c with pushes := c.pushes ++ [Push.start c.coordinator area] }
  | .to i h =>
    match c.pushes[i]? with
    | none => c
    | some p =>
      let (coordinator, p) := p.step c.coordinator h
      ⟨coordinator, c.pushes.set i p⟩

/-- What becomes of them when many things happen, one after the other. -/
def run (c : Crowd) (os : List Occurrence) : Crowd := os.foldl step c

end Crowd

namespace Occurrence

/-- What happens to a push from its start to its commit, if nobody keeps it waiting. -/
def opening (i : Nat) (refresh : Except Error Unit) : List Occurrence :=
  [.to i .told, .to i .told, .to i .told, .to i (.refreshed refresh), .to i .told]

/-- What happens to a push from the answer to its commit to its end, if nobody keeps it waiting
and at most `reports` fractions are still to be told. -/
def closing (i : Nat) (answer : CommitAnswer) (reports : Nat) : List Occurrence :=
  .to i (.answered answer) :: List.replicate (reports + 1) (.to i .told)

end Occurrence

end PackageStaging
