import LinkedDeposit.Http.Message

/-!
# Messages as bytes

The bytes of a request (`Request.toBytes`) and the response that begins some bytes
(`Response.ofBytes?`). A request asks for a connection of its own, so a response ends with its body:
at the last chunk, after the number of bytes that it announces, or where the connection ends.
-/

namespace LinkedDeposit.Http

/-! ## Requests -/

/-- The port of a scheme. -/
def defaultPort (scheme : String) : Nat := if scheme = "https" then 443 else 80

/-- The port that a URL leads to. -/
def portOf (url : Url) : Nat := url.port.getD (defaultPort url.scheme)

/-- A byte after a percent sign. -/
def percentByte (b : UInt8) : List Char :=
  ['%', Nat.digitChar (b.toNat / 16), Nat.digitChar (b.toNat % 16)].map Char.toUpper

/-- Whether a character may stand in the target of a request. -/
def isTargetChar (c : Char) : Bool :=
  0x21 ≤ c.toNat && c.toNat < 0x7F && c ∉ ['"', '<', '>', '^', '\x60', '\x7b', '\x7d']

/-- A character of a target; one that may not stand there as its bytes. -/
def targetChar (c : Char) : List Char :=
  if isTargetChar c then [c] else (Text.toUtf8 (String.singleton c)).flatMap percentByte

/-- What a request names at its peer: the path and the query of the URL. -/
def targetOf (url : Url) : String :=
  let target := (url.path.toList.takeWhile (· ≠ '#')).map fun c => if c = '\\' then '/' else c
  let target := if target.head? = some '/' then target else '/' :: target
  String.ofList (target.flatMap targetChar)

/-- The peer as a request names it. -/
def authorityOf (url : Url) : String :=
  match url.port.filter (· ≠ defaultPort url.scheme) with
  | some port => url.host ++ ":" ++ toString port
  | none => url.host

def lineEnd : String := "\r\n"

/-- The lines of header fields. -/
def headerLines (headers : Headers) : String :=
  String.join (headers.map fun (name, value) => name ++ ": " ++ value ++ lineEnd)

/-- The bytes of a request to a URL with a body. -/
def Request.toBytes (r : Request) (url : Url) (body : Bytes) : Bytes :=
  let own : Headers := [("host", authorityOf url), ("connection", "close"),
    ("content-length", toString body.length)]
  Text.toUtf8 (r.method.name ++ " " ++ targetOf url ++ " HTTP/1.1" ++ lineEnd ++
    headerLines (own ++ r.headers) ++ lineEnd) ++ body

/-! ## Responses -/

/-- The bytes up to a line feed, and those after it. -/
def takeLine : Bytes → Option (Bytes × Bytes)
  | [] => none
  | b :: bytes => if b = 10 then some ([], bytes)
    else (takeLine bytes).map fun (line, rest) => (b :: line, rest)

theorem length_lt_of_takeLine {bytes line rest : Bytes} (h : takeLine bytes = some (line, rest)) :
    rest.length < bytes.length := by
  induction bytes generalizing line with
  | nil => simp [takeLine] at h
  | cons b bytes ih =>
    unfold takeLine at h
    split at h
    · simp only [Option.some.injEq, Prod.mk.injEq] at h
      simp [h.2]
    · obtain ⟨⟨line', rest'⟩, h', heq⟩ := Option.map_eq_some_iff.1 h
      simp only [Prod.mk.injEq] at heq
      have := ih (heq.2 ▸ h')
      simp only [List.length_cons]
      omega

/-- A line as text, a character for each byte, without what ends it. -/
def lineText (line : Bytes) : List Char :=
  Text.trimRight (· = '\r') (line.map fun b => Char.ofNat b.toNat)

/-- The lines before the first empty one, and what follows that. -/
def takeHead (bytes : Bytes) : Option (List (List Char) × Bytes) :=
  match _h : takeLine bytes with
  | none => none
  | some (line, rest) =>
    let text := lineText line
    if text.isEmpty then some ([], rest)
    else (takeHead rest).map fun (lines, body) => (text :: lines, body)
termination_by bytes.length
decreasing_by exact length_lt_of_takeLine (by assumption)

/-- The status in the first line of a response. -/
def status? (line : List Char) : Option Nat :=
  match Text.splitAt (· = ' ') line with
  | ('H' :: 'T' :: 'T' :: 'P' :: '/' :: _) :: digits :: _ =>
    if digits.length = 3 && digits.all Char.isDigit then Url.number? 10 digits else none
  | _ => none

/-- A header field in its line. -/
def headerOf? (line : List Char) : Option (String × String) :=
  match line.dropWhile (· ≠ ':') with
  | _ :: value => some (String.ofList (line.takeWhile (· ≠ ':')),
      String.ofList (Text.trimBoth (fun c => c = ' ' || c = '\t') value))
  | [] => none

/-- Whether a response sends on to another address. -/
def Response.isRedirect (r : Response) : Bool :=
  r.status ∈ [301, 302, 303, 307, 308] && (r.header? "location").isSome

/-- The bytes of a body that is sent in chunks. -/
def takeChunks (bytes : Bytes) : Option Bytes :=
  match _h : takeLine bytes with
  | none => none
  | some (line, rest) =>
    let digits := (lineText line).takeWhile fun c => c ≠ ';' && c ≠ ' '
    match if digits.isEmpty then none else Url.number? 16 digits with
    | none => none
    | some 0 => some []
    | some (n + 1) =>
      let chunk := rest.take (n + 1)
      if chunk.length < n + 1 then none
      else (takeChunks (rest.drop (n + 1 + lineEnd.length))).map (chunk ++ ·)
termination_by bytes.length
decreasing_by
  have := length_lt_of_takeLine _h
  simp only [List.length_drop]
  omega

/-- Whether a response of a status has a body. -/
def hasBody (status : Nat) : Bool := 200 ≤ status && status ≠ 204 && status ≠ 304

/-- The body of a response, in all bytes that arrived after its head. -/
def bodyOf (head : Response) (bytes : Bytes) : Option Bytes :=
  if !hasBody head.status then some []
  else if head.values "transfer-encoding" = ["chunked"] then takeChunks bytes
  else
    match (head.values "content-length").head? with
    | none => some bytes
    | some text =>
      match Url.number? 10 text.toList with
      | none => none
      | some n => if bytes.length < n then none else some (bytes.take n)

/-- The response in bytes, after at most so many that only announce it. -/
def responseAfter? : Nat → Bytes → Option Response
  | announced, bytes =>
    match takeHead bytes with
    | some (first :: fields, rest) => do
      let status ← status? first
      let headers ← fields.mapM headerOf?
      if status < 200 then
        match announced with
        | 0 => none
        | n + 1 => responseAfter? n rest
      else
        let head : Response := ⟨status, headers, none⟩
        return { head with body := bodyOf head rest }
    | _ => none

/-- The most responses that announce another. -/
def maxAnnounced : Nat := 16

/-- The response that begins some bytes. Its body is missing if the bytes end before it does. -/
def Response.ofBytes? (bytes : Bytes) : Option Response := responseAfter? maxAnnounced bytes

end LinkedDeposit.Http
