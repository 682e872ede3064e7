/-
# Configuration documents

A document is a sequence of lines: names with values, and headers of tables.  Reading it builds
one table.  A name may be given once; a table may be extended from elsewhere only as long as
nothing but the names of other tables has called it into being.
-/
import PackageStaging.Toml.Lexeme

namespace PackageStaging.Toml

/-! ### Building tables -/

/-- Changes the table that a path leads to, and makes the tables on the way that are missing.
`dotted` says that the path is the front of a dotted name. -/
def Table.descend (dotted : Bool) (change : Origin → Table → Option Table) :
    List String → Origin → Table → Option Table
  | [], origin, t => change origin t
  | k :: ks, _, t =>
    match t.get? k with
    | none => do
      let made : Origin := if dotted then .dotted else .implied
      let sub ← Table.descend dotted change ks made []
      return t ++ [(k, .table made sub)]
    | some (.table .inline _) => none
    | some (.table origin sub) =>
      if dotted ∧ origin = .header then none
      else do
        let sub ← Table.descend dotted change ks origin sub
        return t.set k (.table origin sub)
    | some (.list true elements) =>
      match elements.getLast? with
      | some (.table origin sub) => do
        let sub ← Table.descend dotted change ks origin sub
        return t.set k (.list true (elements.dropLast ++ [.table origin sub]))
      | _ => none
    | some _ => none

/-- Gives a value to a name of one or more parts. -/
def Table.give (t : Table) (origin : Origin) (path : List String) (v : Value) : Option Table :=
  match path.getLast? with
  | none => none
  | some last =>
    let front := path.dropLast
    Table.descend true (fun origin sub =>
      let open' : Bool := if front = [] then origin ≠ .dotted else origin = .dotted
      if open' && (sub.get? last).isNone then some (sub ++ [(last, v)]) else none) front origin t

/-- The table of names with values. -/
def tableOf (entries : List (List String × Value)) : Option Table :=
  entries.foldlM (fun t e => t.give .inline e.1 e.2) []

/-! ### Values -/

/-- Reads the values of a list, behind the opening bracket or a comma. -/
def listTail (value : Reader Value) : Nat → List Value → Reader (List Value)
  | 0, _, _ => none
  | fuel + 1, read, s =>
    match skipSpace s with
    | ']' :: rest => some (read.reverse, rest)
    | s => do
      let (v, s) ← value s
      match skipSpace s with
      | ',' :: rest => listTail value fuel (v :: read) rest
      | ']' :: rest => return ((v :: read).reverse, rest)
      | _ => none

/-- Reads the entries of a table in braces, behind the opening brace or a comma. -/
def entriesTail (value : Reader Value) :
    Nat → List (List String × Value) → Reader (List (List String × Value))
  | 0, _, _ => none
  | fuel + 1, read, s => do
    let (k, s) ← name s
    let s ← expect '=' s
    let (v, s) ← value (skipBlank s)
    match skipBlank s with
    | ',' :: rest => entriesTail value fuel ((k, v) :: read) rest
    | '\x7d' :: rest => return (((k, v) :: read).reverse, rest)
    | _ => none

/-- Reads a value; `depth` is how deep lists and tables may still be nested. -/
def valueAt : Nat → Reader Value
  | 0, s => scalar s
  | depth + 1, s =>
    match s with
    | '[' :: rest =>
      if depth = 0 then none
      else (listTail (valueAt depth) (rest.length + 1) [] rest).map fun p => (.list false p.1, p.2)
    | '\x7b' :: rest =>
      if depth = 0 then none
      else match skipBlank rest with
        | '\x7d' :: rest => some (.table .inline [], rest)
        | rest => do
          let (es, rest) ← entriesTail (valueAt depth) (rest.length + 1) [] rest
          return (.table .inline (← tableOf es), rest)
    | s => scalar s

/-- Reads a value. -/
def value : Reader Value := valueAt maxDepth

/-! ### Documents -/

/-- Where the names of the lines that come next belong. -/
inductive Place where
  /-- To the document itself. -/
  | document
  /-- To the table of this path. -/
  | table (path : List String)
  /-- To a new element of the list of tables of this path. -/
  | element (path : List String)

/-- A document that has been read in part. -/
structure Draft where
  /-- What is complete. -/
  root : Table
  /-- The table that is being read. -/
  current : Table
  /-- Where it belongs. -/
  place : Place

/-- Changes the entry of the last part of a path in the table of the parts before. -/
def changeLast (path : List String) (change : String → Table → Option Table) (root : Table) :
    Option Table :=
  match path.getLast? with
  | none => none
  | some last => Table.descend false (fun _ t => change last t) path.dropLast .header root

/-- The document with the table that is being read put at its place. -/
def Draft.closed (d : Draft) : Option Table :=
  match d.place with
  | .document => some d.current
  | .table path =>
    changeLast path (fun last t =>
      if (t.get? last).isSome then none else some (t ++ [(last, .table .header d.current)])) d.root
  | .element path =>
    changeLast path (fun last t =>
      match t.get? last with
      | some (.list true elements) =>
        some (t.set last (.list true (elements ++ [.table .header d.current])))
      | _ => none) d.root

/-- The value of a name in the table that a path leads to: there may be none yet, and there may be
something in the way. -/
def Table.lookAhead (root : Table) (last : String) : List String → Option (Option Value)
  | [] => some (root.get? last)
  | k :: ks =>
    match root.get? k with
    | none => some none
    | some (.table .inline _) => none
    | some (.table _ sub) => Table.lookAhead sub last ks
    | some (.list true elements) =>
      match elements.getLast? with
      | some (.table _ sub) => Table.lookAhead sub last ks
      | _ => none
    | some _ => none

/-- Goes on to the table of a header.  A table that was only implied so far is taken up again. -/
def Draft.openTable (d : Draft) (path : List String) : Option Draft := do
  let root ← d.closed
  let last ← path.getLast?
  match ← root.lookAhead last path.dropLast with
  | none => return ⟨← changeLast path (fun _ t => some t) root, [], .table path⟩
  | some (.table .implied sub) =>
    return ⟨← changeLast path (fun last t => some (t.erase last)) root, sub, .table path⟩
  | some _ => none

/-- Goes on to a new element of a list of tables. -/
def Draft.openElement (d : Draft) (path : List String) : Option Draft := do
  let root ← d.closed
  let root ← changeLast path (fun last t =>
    match t.get? last with
    | none => some (t ++ [(last, .list true [])])
    | some (.list true _) => some t
    | some _ => none) root
  return ⟨root, [], .element path⟩

/-- Reads the header of a table, behind its first bracket. -/
def header (d : Draft) : Reader Draft
  | '[' :: rest => do
    let (path, s) ← name rest
    let s ← expect ']' s
    let s ← expect ']' s
    return (← d.openElement path, ← lineEnd? s)
  | s => do
    let (path, s) ← name s
    let s ← expect ']' s
    return (← d.openTable path, ← lineEnd? s)

/-- Reads a line of a document. -/
def line (d : Draft) : Reader Draft := fun s =>
  match skipBlank s with
  | '#' :: rest => do return (d, ← lineEnd? ('#' :: rest))
  | '[' :: rest => header d rest
  | s =>
    match newLine? s with
    | some rest => some (d, rest)
    | none => do
      let (path, s) ← name s
      let s ← expect '=' s
      let (v, s) ← value (skipBlank s)
      let s ← lineEnd? s
      return ({ d with current := ← d.current.give .header path v }, s)

/-- Reads lines to the end of a document. -/
def lines : Nat → Draft → List Char → Option Table
  | 0, _, _ => none
  | fuel + 1, d, s =>
    match skipBlank s with
    | [] => d.closed
    | s => do
      let (d, s) ← line d s
      lines fuel d s

/-- The table that a document holds, if it is well formed. -/
def parse (doc : String) : Option Table :=
  let s := match doc.toList with
    | '\ufeff' :: rest => rest
    | s => s
  lines (s.length + 1) ⟨[], [], .document⟩ s

end PackageStaging.Toml
