/-
# Messages as they travel

A request as the bytes that are sent, and a reply from the bytes that come back before the
connection is closed.  The head of a message is lines; how long a body is follows from the head:
it comes in chunks, or its size is given, or it goes on to the end.
-/
import PackageStaging.Http.Message
import PackageStaging.Text.Blank
import PackageStaging.Text.Digits

namespace PackageStaging.Http

/-! ### Requests -/

/-- What a request asks the host for: path and query. -/
def target (u : Url) : String := String.ofList (u.path.text ++ Url.marked '?' u.query)

/-- The host that a request goes to, with its port. -/
def hostOf (u : Url) : String :=
  String.ofList ((u.authority.map Url.Authority.hostText).getD [])

/-- A request as it travels; the connection is to be closed behind the reply. -/
def Request.bytes (boundary : String) (read : PackageStaging.Path → Bytes) (r : Request) : Bytes :=
  let fields : List (String × Option String) :=
    [("Host", some (hostOf r.url)), ("Accept", some "*/*"), ("Connection", some "close"),
      ("Authorization", r.credentials.map basicAuthorization),
      ("Authorization", r.token.map authorization),
      ("Content-Type", r.body.contentType? boundary),
      ("Content-Length",
        if r.method = .post then some (toString (r.body.size boundary)) else none)]
  let lines := (r.method.text ++ " " ++ target r.url ++ " HTTP/1.1") ::
    fields.filterMap fun (name, value) => value.map fun v => name ++ ": " ++ v
  lines.flatMap (fun l => Utf8.encode (l ++ "\r\n")) ++ Utf8.encode "\r\n"
    ++ r.body.bytes boundary read

/-! ### Lines -/

/-- The first line and what follows it, if there is a whole line. -/
def cutLine : Bytes → Option (Bytes × Bytes)
  | [] => none
  | b :: rest =>
    if b = 0x0A then some ([], rest)
    else (cutLine rest).map fun (line, rest) =>
      (if line = [] ∧ b = 0x0D then [] else b :: line, rest)

/-- What follows a line is shorter than before. -/
theorem length_of_cutLine {s line rest : Bytes} (h : cutLine s = some (line, rest)) :
    rest.length < s.length := by
  induction s generalizing line rest with
  | nil => simp [cutLine] at h
  | cons b s ih =>
    simp only [cutLine] at h
    split at h
    · cases h; simp
    · obtain ⟨⟨l, r⟩, hl, he⟩ := Option.map_eq_some_iff.1 h
      cases he
      exact Nat.lt_succ_of_lt (ih hl)

/-- The lines up to an empty one, and what follows it. -/
def cutHead (s : Bytes) : Option (List Bytes × Bytes) :=
  match h : cutLine s with
  | none => none
  | some (line, rest) =>
    if line = [] then some ([], rest)
    else
      have := length_of_cutLine h
      (cutHead rest).map fun (lines, rest) => (line :: lines, rest)
termination_by s.length

/-- What follows a head is shorter than before. -/
theorem length_of_cutHead {s rest : Bytes} {lines : List Bytes}
    (h : cutHead s = some (lines, rest)) : rest.length < s.length := by
  fun_induction cutHead s generalizing lines rest with
  | case1 => simp at h
  | case2 s r hl => cases h; exact length_of_cutLine hl
  | case3 s line r hl hne hlt ih =>
    obtain ⟨⟨ls, r'⟩, hc, he⟩ := Option.map_eq_some_iff.1 h
    cases he
    exact Nat.lt_trans (ih hc) hlt

/-! ### Replies -/

/-- The value of a field of a head, its name compared without regard to case. -/
def field? (name : String) (lines : List Bytes) : Option String :=
  lines.findSome? fun line =>
    let text := (Utf8.lossy line).toList
    let given := text.takeWhile (· ≠ ':')
    if given.map Char.toLower = name.toList.map Char.toLower then
      some (Text.trim (String.ofList (text.drop (given.length + 1))))
    else none

/-- The status in the first line of a reply. -/
def status? (line : Bytes) : Option Nat :=
  match (Utf8.lossy line).toList.dropWhile (· ≠ ' ') with
  | ' ' :: rest =>
    let digits := rest.takeWhile Char.isDigit
    if digits.length = 3 then Text.numberIn 10 digits else none
  | _ => none

/-- The content of a body that comes in chunks, each behind a line with its size; the last one is
empty. -/
def chunks (s : Bytes) : Option Bytes :=
  match h : cutLine s with
  | none => none
  | some (line, rest) =>
    let digits := (Utf8.lossy line).toList.takeWhile fun c => (Text.hexValue? c).isSome
    match Text.numberIn 16 digits with
    | none => none
    | some size =>
      if digits = [] ∨ rest.length < size then none
      else if size = 0 then some []
      else
        have := length_of_cutLine h
        (chunks (rest.drop (size + 2))).map fun later => rest.take size ++ later
termination_by s.length
decreasing_by simp only [List.length_drop]; omega

/-- The body behind a head, if all of it is there. -/
def bodyOf (lines : List Bytes) (s : Bytes) : Option Bytes :=
  match field? "Transfer-Encoding" lines with
  | some _ => chunks s
  | none =>
    match (field? "Content-Length" lines).bind fun n => Text.numberIn 10 n.toList with
    | some size => if s.length < size then none else some (s.take size)
    | none => some s

/-- The reply in all that came back, behind announcements that one will come; none if its head is
not whole. -/
def Reply.ofBytes? (s : Bytes) : Option Reply :=
  match h : cutHead s with
  | none => none
  | some (lines, rest) =>
    match lines.head?.bind status? with
    | none => none
    | some status =>
      if 100 ≤ status ∧ status < 200 then
        have := length_of_cutHead h
        ofBytes? rest
      else if status = 204 ∨ status = 304 then some ⟨status, some []⟩
      else some ⟨status, bodyOf lines rest⟩
termination_by s.length

end PackageStaging.Http
