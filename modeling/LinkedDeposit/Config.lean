import LinkedDeposit.Disk
import LinkedDeposit.Json.Document
import LinkedDeposit.Text.Utf8
import LinkedDeposit.Toml.Document
import LinkedDeposit.Toml.Reader
import LinkedDeposit.Url.Basic

/-!
# Configuration

The settings of a deposit. They are read from a TOML file, in which every setting has a default, and
have a JSON form that names all of them. `validate` holds them to what a run needs: absolute http
URLs, and a user name where there is a password.
-/

namespace LinkedDeposit

/-- How a changed graph is written back. -/
inductive PatchMode where
  /-- As a SPARQL update of the triples that change. -/
  | sparqlUpdate
  /-- As a whole. -/
  | replace
  deriving DecidableEq, Repr, Inhabited

namespace PatchMode

def name : PatchMode → String
  | sparqlUpdate => "sparql-update"
  | replace => "replace"

def ofName? : String → Option PatchMode
  | "sparql-update" => some sparqlUpdate
  | "replace" => some replace
  | _ => none

end PatchMode

inductive LogFormat where
  | text
  | json
  deriving DecidableEq, Repr, Inhabited

namespace LogFormat

def name : LogFormat → String
  | text => "text"
  | json => "json"

def ofName? : String → Option LogFormat
  | "text" => some text
  | "json" => some json
  | _ => none

end LogFormat

/-- How the repository is reached. -/
structure RepositorySettings where
  baseUrl : String := "http://localhost:8080/rest"
  username : Option String := none
  password : Option String := none
  /-- Whether each deposit is a transaction of the repository. -/
  useTransactions : Bool := true
  patchMode : PatchMode := .sparqlUpdate
  /-- The most seconds that a request may take. -/
  timeoutSeconds : Option Nat := none
  deriving DecidableEq, Repr, Inhabited

/-- How a run logs. -/
structure LogSettings where
  /-- A level, or a list of directives. -/
  level : String := "info"
  format : LogFormat := .text
  deriving DecidableEq, Repr, Inhabited

/-- All settings. -/
structure Config where
  repository : RepositorySettings := {}
  /-- The container that receives packages, if it is not the base of the repository. -/
  targetContainer : Option String := none
  logging : LogSettings := {}
  deriving DecidableEq, Repr, Inhabited

namespace Config

section Reading

variable {α : Type} [Document α]

/-- The repository's settings. -/
def repositoryOf? (v : α) : Option RepositorySettings := do
  let fields ← Document.record? ["base_url", "username", "password", "use_transactions",
    "patch_mode", "timeout_secs"] v
  let defaults : RepositorySettings := {}
  return {
    baseUrl := ← fields.defaulted 0 defaults.baseUrl Document.text?
    username := ← fields.optional 1 Document.text?
    password := ← fields.optional 2 Document.text?
    useTransactions := ← fields.defaulted 3 defaults.useTransactions Document.flag?
    patchMode := ← fields.defaulted 4 defaults.patchMode fun v =>
      (Document.choice? v).bind PatchMode.ofName?
    timeoutSeconds := ← fields.optional 5 Document.natural? }

/-- The target container, in its section. -/
def targetOf? (v : α) : Option (Option String) := do
  (← Document.record? ["target_container"] v).optional 0 Document.text?

/-- The settings of the log. -/
def loggingOf? (v : α) : Option LogSettings := do
  let fields ← Document.record? ["level", "format"] v
  let defaults : LogSettings := {}
  return {
    level := ← fields.defaulted 0 defaults.level Document.text?
    format := ← fields.defaulted 1 defaults.format fun v =>
      (Document.choice? v).bind LogFormat.ofName? }

/-- The settings of a document. -/
def ofDocument? (v : α) : Option Config := do
  let fields ← Document.record? ["repository", "deposit", "logging"] v
  return {
    repository := ← fields.defaulted 0 {} repositoryOf?
    targetContainer := ← fields.defaulted 1 none targetOf?
    logging := ← fields.defaulted 2 {} loggingOf? }

end Reading

/-- The settings of a TOML text. -/
def ofToml (text : String) : Except DepositError Config :=
  match (Toml.ofString? text).bind ofDocument? with
  | some config => .ok config
  | none => .error (.config "TOML parse error")

/-- The settings in the file at a path. -/
def ofFile (path : String) : FileView → Except DepositError Config
  | .file bytes =>
    match Text.ofUtf8? bytes with
    | some text => ofToml text
    | none => .error (.io FileView.notUtf8)
  | _ => .error (.invalidPath path)

/-- Writes a value or null. -/
def orNull (v : Option String) : String := v.getD "null"

/-- Writes a truth value. -/
def flagText (b : Bool) : String := if b then "true" else "false"

/-- The JSON form of the settings. -/
def toJson (c : Config) : String :=
  let r := c.repository
  Json.writeRecord [
    ("repository", Json.writeRecord [
      ("base_url", Json.quote r.baseUrl),
      ("username", orNull (r.username.map Json.quote)),
      ("password", orNull (r.password.map Json.quote)),
      ("use_transactions", flagText r.useTransactions),
      ("patch_mode", Json.quote r.patchMode.name),
      ("timeout_secs", orNull (r.timeoutSeconds.map toString))]),
    ("deposit", Json.writeRecord [
      ("target_container", orNull (c.targetContainer.map Json.quote))]),
    ("logging", Json.writeRecord [
      ("level", Json.quote c.logging.level), ("format", Json.quote c.logging.format.name)])]

/-- The container that receives packages. -/
def target (c : Config) : String := c.targetContainer.getD c.repository.baseUrl

/-- Refuses what is not an absolute http URL. -/
def checkHttpUrl (s : String) : Except DepositError Unit :=
  match Url.ofString? s with
  | none => .error (.invalidUri s)
  | some url =>
    if url.isHttp then .ok ()
    else .error (.config ("unsupported URL scheme '" ++ url.scheme ++ "' in " ++ s))

/-- Holds the settings to what a run needs. -/
def validate (c : Config) : Except DepositError Unit := do
  checkHttpUrl c.repository.baseUrl
  match c.targetContainer with
  | some target => checkHttpUrl target
  | none => pure ()
  if c.repository.password.isSome && c.repository.username.isNone then
    throw (.config "repository.password is set without repository.username")

end Config

end LinkedDeposit
