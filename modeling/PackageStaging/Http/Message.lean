/-
# Requests and replies

What is sent to the server and what comes back.  A body is nothing, a JSON document, or a form of
texts and files; `formBytes` is the form as it travels, between marks that occur nowhere else.
-/
import PackageStaging.Text.Base64
import PackageStaging.Text.Utf8
import PackageStaging.Path
import PackageStaging.Url

namespace PackageStaging.Http

/-- The method of a request. -/
inductive Method where
  | get
  | post
deriving DecidableEq, Repr

/-- The word for a method. -/
def Method.text : Method → String
  | .get => "GET"
  | .post => "POST"

/-- A field of a form. -/
inductive Field where
  /-- A text. -/
  | text (name value : String)
  /-- A file, sent under a name of its own. -/
  | file (name fileName : String) (path : PackageStaging.Path)
deriving DecidableEq, Repr

/-- The file of a field that is one. -/
def Field.path? : Field → Option PackageStaging.Path
  | .text _ _ => none
  | .file _ _ path => some path

/-- The body of a request. -/
inductive Body where
  | empty
  | json (text : String)
  /-- A form, and the sizes of its files, which are told before they are sent. -/
  | form (fields : List Field) (sizes : List Nat)
deriving DecidableEq, Repr

/-- The files in a body, in the order in which they are sent. -/
def Body.paths : Body → List PackageStaging.Path
  | .form fields _ => fields.filterMap Field.path?
  | _ => []

/-- A request. -/
structure Request where
  method : Method
  /-- Where it goes. -/
  url : Url
  /-- The credentials that the address came with. -/
  credentials : Option Url.Credentials
  /-- The token that authorises it. -/
  token : Option String
  body : Body
deriving DecidableEq, Repr

/-- A reply. -/
structure Reply where
  /-- The number that says how it went. -/
  status : Nat
  /-- The body, unless the connection broke off before its end. -/
  body : Option Bytes
deriving DecidableEq, Repr

/-- What becomes of a request.  How the files of its body are taken off is told by an `α`. -/
inductive Fate (α : Type) where
  /-- There is nobody to take it. -/
  | unreachable
  /-- It is taken in part or as a whole, but nothing comes back. -/
  | unanswered (files : α)
  /-- A reply comes back. -/
  | answered (files : α) (reply : Reply)
deriving DecidableEq, Repr

namespace Fate

variable {α β : Type}

/-- The same with something else that is told about files. -/
def map (f : α → β) : Fate α → Fate β
  | .unreachable => .unreachable
  | .unanswered files => .unanswered (f files)
  | .answered files r => .answered (f files) r

/-- What is told about files, if anything of the request is received. -/
def files? : Fate α → Option α
  | .unreachable => none
  | .unanswered files => some files
  | .answered files _ => some files

/-- Whether anything of the request is received. -/
def isReceived (f : Fate α) : Bool := f.files?.isSome

/-- What comes back, if anything does. -/
def reply? : Fate α → Option Reply
  | .answered _ r => some r
  | _ => none

end Fate

/-- What became of a request, and what was read of the files of its body. -/
abbrev Delivery := Fate (List Bytes)

/-- What the reads of the files returned, in order; the end of a file is a read that returned
nothing. -/
def Delivery.reads (d : Delivery) : List Bytes := d.files?.getD []

/-! ### Headers -/

/-- The header that carries a token. -/
def authorization (token : String) : String := "Bearer " ++ token

/-- The header that carries credentials. -/
def basicAuthorization (c : Url.Credentials) : String :=
  "Basic " ++ Base64.encode (Utf8.encode (c.name ++ ":" ++ c.password.getD ""))

/-- Whether a text may be the value of a header: it holds no control character but the tab. -/
def isHeaderValue (s : String) : Bool :=
  s.toList.all fun c => c = '\t' || (0x20 ≤ c.toNat && c.toNat ≠ 0x7F)

/-- What the header says about the kind of a body. -/
def Body.contentType? (boundary : String) : Body → Option String
  | .empty => none
  | .json _ => some "application/json"
  | .form _ _ => some ("multipart/form-data; boundary=" ++ boundary)

/-! ### Forms -/

/-- The name of a file inside quotes. -/
def quotedFileName (s : String) : List Char :=
  s.toList.flatMap fun c => if c ∈ ['\\', '"', '\r', '\n'] then ['\\', c] else [c]

/-- What stands in front of the content of a field. -/
def Field.head : Field → String
  | .text name _ => "Content-Disposition: form-data; name=\"" ++ name ++ "\""
  | .file name fileName _ =>
    "Content-Disposition: form-data; name=\"" ++ name ++ "\"; filename=\""
      ++ String.ofList (quotedFileName fileName)
      ++ "\"\r\nContent-Type: application/octet-stream"

/-- The content of a field, given that of files. -/
def Field.content (read : PackageStaging.Path → Bytes) : Field → Bytes
  | .text _ value => Utf8.encode value
  | .file _ _ path => read path

/-- A form as it travels. -/
def formBytes (boundary : String) (read : PackageStaging.Path → Bytes) (fields : List Field) :
    Bytes :=
  (fields.flatMap fun f =>
    Utf8.encode ("--" ++ boundary ++ "\r\n" ++ f.head ++ "\r\n\r\n") ++ f.content read
      ++ Utf8.encode "\r\n") ++ Utf8.encode ("--" ++ boundary ++ "--\r\n")

/-- A body as it travels. -/
def Body.bytes (boundary : String) (read : PackageStaging.Path → Bytes) : Body → Bytes
  | .empty => []
  | .json text => Utf8.encode text
  | .form fields _ => formBytes boundary read fields

/-- The size of a body as it is told before it is sent. -/
def Body.size (boundary : String) : Body → Nat
  | .form fields sizes => (formBytes boundary (fun _ => []) fields).length + sizes.foldr (· + ·) 0
  | body => (body.bytes boundary fun _ => []).length

/-! ### Replies -/

/-- Whether the request was carried out. -/
def Reply.isSuccess (r : Reply) : Bool := 200 ≤ r.status && r.status < 300

/-- The phrases for the numbers of replies. -/
def phrases : List (Nat × String) := [
  (100, "Continue"), (101, "Switching Protocols"), (102, "Processing"), (200, "OK"),
  (201, "Created"), (202, "Accepted"), (203, "Non Authoritative Information"),
  (204, "No Content"), (205, "Reset Content"), (206, "Partial Content"), (207, "Multi-Status"),
  (208, "Already Reported"), (226, "IM Used"), (300, "Multiple Choices"),
  (301, "Moved Permanently"), (302, "Found"), (303, "See Other"), (304, "Not Modified"),
  (305, "Use Proxy"), (307, "Temporary Redirect"), (308, "Permanent Redirect"),
  (400, "Bad Request"), (401, "Unauthorized"), (402, "Payment Required"), (403, "Forbidden"),
  (404, "Not Found"), (405, "Method Not Allowed"), (406, "Not Acceptable"),
  (407, "Proxy Authentication Required"), (408, "Request Timeout"), (409, "Conflict"),
  (410, "Gone"), (411, "Length Required"), (412, "Precondition Failed"),
  (413, "Payload Too Large"), (414, "URI Too Long"), (415, "Unsupported Media Type"),
  (416, "Range Not Satisfiable"), (417, "Expectation Failed"), (418, "I'm a teapot"),
  (421, "Misdirected Request"), (422, "Unprocessable Entity"), (423, "Locked"),
  (424, "Failed Dependency"), (425, "Too Early"), (426, "Upgrade Required"),
  (428, "Precondition Required"), (429, "Too Many Requests"),
  (431, "Request Header Fields Too Large"), (451, "Unavailable For Legal Reasons"),
  (500, "Internal Server Error"), (501, "Not Implemented"), (502, "Bad Gateway"),
  (503, "Service Unavailable"), (504, "Gateway Timeout"), (505, "HTTP Version Not Supported"),
  (506, "Variant Also Negotiates"), (507, "Insufficient Storage"), (508, "Loop Detected"),
  (510, "Not Extended"), (511, "Network Authentication Required")]

/-- The number of a reply with its phrase. -/
def Reply.statusText (r : Reply) : String :=
  toString r.status ++ " " ++
    ((phrases.find? fun p => p.1 = r.status).map (·.2)).getD "<unknown status code>"

end PackageStaging.Http
