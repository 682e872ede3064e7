/-
# Values of a configuration document

A document is a table: names with values in the order in which they were written.  Tables are
told apart by how they came about, because that decides who may still add to them.
-/
import PackageStaging.Number.Shortest
import PackageStaging.Text.Printable

namespace PackageStaging.Toml

/-- A floating point number. -/
inductive Real where
  | finite (negative : Bool) (magnitude : Binary64)
  | infinite (negative : Bool)
  | undefined
deriving DecidableEq, Repr

/-- How a table came about. -/
inductive Origin where
  /-- It has a header, or is the document itself. -/
  | header
  /-- It lies on the way to a table with a header. -/
  | implied
  /-- It lies on the way to a dotted name. -/
  | dotted
  /-- It was written in braces. -/
  | inline
deriving DecidableEq, Repr

/-- A value. -/
inductive Value where
  | text (s : String)
  | whole (n : Int)
  | real (r : Real)
  | boolean (b : Bool)
  /-- A date, a time or both. -/
  | moment (written : List Char)
  /-- A list; `ofTables` says that each element has a header of its own. -/
  | list (ofTables : Bool) (elements : List Value)
  | table (origin : Origin) (entries : List (String × Value))
deriving Repr

/-- Names with values, in order. -/
abbrev Table := List (String × Value)

/-- The value of a name. -/
def Table.get? (t : Table) (name : String) : Option Value :=
  (t.find? fun e => e.1 = name).map (·.2)

/-- The table without a name. -/
def Table.erase (t : Table) (name : String) : Table := t.filter fun e => e.1 ≠ name

/-- The table with a value for a name, at the place of the old one or else at the end. -/
def Table.set (t : Table) (name : String) (v : Value) : Table :=
  if t.any fun e => e.1 = name then t.map fun e => if e.1 = name then (name, v) else e
  else t ++ [(name, v)]

/-- A floating point number in words. -/
def Real.text : Real → String
  | .finite negative x =>
    (if negative then "-" else "") ++ (Decimal.shortest x).positionalWithPoint
  | .infinite negative => if negative then "-inf" else "inf"
  | .undefined => "NaN"

/-- What a message calls a value. -/
def Value.description : Value → String
  | .text s => "string " ++ Text.quoted s
  | .whole n => "integer `" ++ toString n ++ "`"
  | .real r => "floating point `" ++ r.text ++ "`"
  | .boolean b => "boolean `" ++ (if b then "true" else "false") ++ "`"
  | .moment _ => "map"
  | .list _ _ => "sequence"
  | .table _ _ => "map"

end PackageStaging.Toml
