import LinkedDeposit.Disk
import LinkedDeposit.Text.Base64
import LinkedDeposit.Text.Charset
import LinkedDeposit.Url.Basic

/-!
# HTTP messages

Requests and responses as far as a deposit needs them, and what carries one to the other
(`Transport`).
-/

namespace LinkedDeposit.Http

inductive Method where
  | get
  | post
  | put
  | patch
  | delete
  deriving DecidableEq, Repr, Inhabited

namespace Method

def name : Method → String
  | get => "GET"
  | post => "POST"
  | put => "PUT"
  | patch => "PATCH"
  | delete => "DELETE"

end Method

/-- Names of header fields with their values, in order. -/
abbrev Headers := List (String × String)

/-- A request. The body's bytes may turn out not to be readable while it is sent. -/
structure Request where
  method : Method
  url : String
  headers : Headers
  body : Except String Bytes

/-- Whether a header field may have the value. -/
def isHeaderValue (s : String) : Bool :=
  s.toList.all fun c => c = '\t' || (0x20 ≤ c.toNat && c.toNat ≠ 0x7F)

/-- Why a request cannot be sent, if it cannot. -/
def Request.defect? (r : Request) : Option String :=
  match Url.ofString? r.url with
  | none => some "invalid URL"
  | some url =>
    if !url.isHttp then some "URL scheme is not allowed"
    else if !r.headers.all fun (_, v) => isHeaderValue v then some "invalid header value"
    else none

/-- The credentials of a user in a header field. -/
def basicCredentials (username : String) (password : Option String) : String :=
  "Basic " ++ Text.toBase64 (Text.toUtf8 (username ++ ":" ++ password.getD ""))

/-- A response. -/
structure Response where
  status : Nat
  headers : Headers
  /-- The bytes of the body, if it did not end early. -/
  body : Option Bytes
  deriving DecidableEq, Repr, Inhabited

namespace Response

def isSuccess (r : Response) : Bool := 200 ≤ r.status && r.status < 300

/-- Whether a value is plain enough to be read as text. -/
def isReadable (s : String) : Bool :=
  s.toList.all fun c => c = '\t' || (0x20 ≤ c.toNat && c.toNat < 0x7F)

/-- The values of the fields of a name, which is given in small letters. -/
def values (r : Response) (name : String) : List String :=
  (r.headers.filter fun (n, _) => String.ofList (n.toList.map Char.toLower) = name).map (·.2)

/-- The value of the first field of a name, if it can be read. -/
def header? (r : Response) (name : String) : Option String :=
  (r.values name).head?.filter isReadable

/-- A parameter of a media type, its name in small letters. -/
def parameter (part : List Char) : String × String :=
  let name := part.takeWhile (· ≠ '=')
  let value := Text.trimBlank (part.drop (name.length + 1))
  (String.ofList ((Text.trimBlank name).map Char.toLower),
    String.ofList (Text.trimBoth (· = '"') value))

/-- The encoding that a media type names for its text, which is UTF-8 if it names none. -/
def charsetOf (mediaType : String) : Text.Charset :=
  let parameters := (Text.splitAt (· = ';') mediaType.toList).tail.map parameter
  ((parameters.find? (·.1 = "charset")).map fun p => .ofLabel p.2).getD .utf8

/-- The body as text, in the encoding that the response declares. -/
def text? (r : Response) : Option String :=
  r.body.map (((r.header? "content-type").map charsetOf).getD .utf8).decode

end Response

/-- Carries requests to a peer and back. It fails when no response arrives, for a reason. Redirects
are its own business: the response is the one at their end. -/
abbrev Transport (m : Type → Type) := Request → m (Except String Response)

/-- A transport that first refuses requests which cannot be sent. -/
def Transport.checked {m : Type → Type} [Monad m] (t : Transport m) : Transport m := fun r =>
  match r.defect? with
  | some reason => return .error reason
  | none => t r

end LinkedDeposit.Http
