import LinkedDeposit.Http.Wire
import LinkedDeposit.Log.Line
import LinkedDeposit.Program
import Std.Async.DNS
import Std.Async.TCP
import Std.Async.Timer
import Std.Time

/-!
# The command line

Runs the program in the surroundings that the system gives: files, the environment, the standard
streams and connections over TCP.
-/

namespace LinkedDeposit.Machine

open Std.Async

/-- What the system says of a failure: its words and the number of the cause. -/
def numbered (code : UInt32) (words : String) : String :=
  words ++ " (os error " ++ toString code ++ ")"

/-- The number of a cause, with what the system says of it. -/
def cause? : IO.Error → Option (UInt32 × String)
  | .alreadyExists _ code words | .otherError code words | .resourceBusy code words
  | .resourceVanished code words | .unsupportedOperation code words | .hardwareFault code words
  | .unsatisfiedConstraints code words | .illegalOperation code words | .protocolError code words
  | .timeExpired code words | .interrupted _ code words | .noFileOrDirectory _ code words
  | .invalidArgument _ code words | .permissionDenied _ code words
  | .resourceExhausted _ code words | .inappropriateType _ code words
  | .noSuchThing _ code words => some (code, words)
  | .unexpectedEof | .userError _ => none

def reason (e : IO.Error) : String :=
  match cause? e with
  | some (code, words) => numbered code words
  | none => toString e

/-- The number of the failure to read a directory as a file. -/
def isDirectoryCode : UInt32 := 21

/-- The disk of the system. -/
def disk : Disk IO := fun path => do
  if path.toList.contains '\x00' then return .failure FileView.holdsNul
  try
    return .file (← IO.FS.readBinFile path).toList
  catch e =>
    return if (cause? e).any (·.1 = isDirectoryCode) then .directory else .failure (reason e)

def append (path : String) (bytes : Bytes) : IO (Option String) := do
  if path.toList.contains '\x00' then return some FileView.holdsNul
  try
    let handle ← IO.FS.Handle.mk path .append
    handle.write ⟨bytes.toArray⟩
    return none
  catch e => return some (reason e)

/-- The most bytes that are taken from a connection at once. -/
def blockSize : UInt64 := 65536

/-- What arrives until the peer ends the connection. -/
def receiveAll (client : TCP.Socket.Client) : Async ByteArray := do
  let mut received := ByteArray.empty
  repeat
    match ← client.recv? blockSize with
    | none => break
    | some block => received := received ++ block
  return received

/-- An address of a host with a port. -/
def socketAddress (address : Std.Net.IPAddr) (port : UInt16) : Std.Net.SocketAddress :=
  match address with
  | .v4 address => .v4 ⟨address, port⟩
  | .v6 address => .v6 ⟨address, port⟩

/-- The name of a host without the brackets around a numeric one. -/
def hostName (host : String) : String :=
  String.ofList (host.toList.filter fun c => c ≠ '[' && c ≠ ']')

/-- Sends bytes to a host and takes what it answers. -/
def exchange (host : String) (port : Nat) (bytes : Bytes) : Async ByteArray := do
  let addresses ← DNS.getAddrInfo (hostName host) (toString port)
  match addresses[0]? with
  | none => throw (IO.userError ("no address for " ++ host))
  | some address =>
    let client ← TCP.Socket.Client.mk
    client.connect (socketAddress address port.toUInt16)
    client.send ⟨bytes.toArray⟩
    receiveAll client

/-- Ends an exchange that takes longer than so many seconds. -/
def within (seconds : Option Nat) (exchange : Async ByteArray) : Async ByteArray :=
  match seconds with
  | none => exchange
  | some seconds =>
    Async.race exchange do
      sleep (Std.Time.Millisecond.Offset.ofNat (seconds * 1000))
      throw (IO.userError "operation timed out")

/-- Carries requests over TCP. Connections are not encrypted, and redirects are not followed: a
response that sends on to another address counts as none. -/
def transport (seconds : Option Nat) : Http.Transport IO := fun r => do
  match Url.ofString? r.url, r.body with
  | none, _ => return .error "invalid URL"
  | _, .error reason => return .error reason
  | some url, .ok body =>
    if url.scheme ≠ "http" then return .error "encrypted connections are not supported"
    try
      let bytes := r.toBytes url body
      let received ← (within seconds (exchange url.host (Http.portOf url) bytes)).block
      match Http.Response.ofBytes? received.toList with
      | some response =>
        if response.isRedirect then return .error "redirects are not supported"
        return .ok response
      | none => return .error "connection closed"
    catch e => return .error ((cause? e).elim (toString e) (·.2))

def log (format : LogFormat) (filter : LogFilter) (e : LogEntry) : IO Unit := do
  if e.passes filter then IO.eprintln (e.line format)

/-! ## Names that sort by time

Names of 26 characters: the first ten count milliseconds, the others are random. Each character is
one of the digits and the small letters without `i`, `l`, `o` and `u`, so that the order of names is
that of the times they were given at.
-/

/-- The characters of names by their value. -/
def nameAlphabet : List Char := "0123456789abcdefghjkmnpqrstvwxyz".toList

/-- The last so many digits of a number to the base 32. -/
def nameDigits : Nat → Nat → List Char
  | 0, _ => []
  | count + 1, n => nameDigits count (n / 32) ++ [nameAlphabet.getD (n % 32) '0']

/-- The name given at a time, with a random part. -/
def sortableName (milliseconds random : Nat) : String :=
  String.ofList (nameDigits 10 milliseconds ++ nameDigits 16 random)

/-- The value of some bytes, the first of them first. -/
def natOfBytes (bytes : ByteArray) : Nat :=
  bytes.toList.foldl (fun n b => n * 256 + b.toNat) 0

/-- The environment's variable with a log filter. -/
def logVariable : String := "RUST_LOG"

/-- The number of random bytes in a name. -/
def randomBytes : USize := 10

def surroundings : IO (Surroundings IO) := do
  let now := (← Std.Time.Timestamp.now).toMillisecondsSinceUnixEpoch.val.toNat
  let random := natOfBytes (← IO.getRandomBytes randomBytes)
  return {
    disk, append, transport, log
    logDirectives := ← IO.getEnv logVariable
    freshName := fun n => sortableName now (random + n) }

end LinkedDeposit.Machine

/-- Runs the program. -/
def main (args : List String) : IO UInt32 := do
  let outcome ← LinkedDeposit.Program.run (← LinkedDeposit.Machine.surroundings) args
  for line in outcome.output do IO.println line
  for line in outcome.messages do IO.eprintln line
  return outcome.exitCode
