import LinkedDeposit.CommandLine
import LinkedDeposit.Deposit.Run
import LinkedDeposit.Event.Sink
import LinkedDeposit.Ldp.Session
import LinkedDeposit.Package.Tree
import LinkedDeposit.Repository.Workspace
import LinkedDeposit.Session.Probe

/-!
# The program

What the program does for a command line, in any surroundings that can read and append to files,
send requests and log (`Surroundings`). `deposit` deposits a package over HTTP; `plan` deposits it
into a repository in memory and shows where each resource landed.
-/

namespace LinkedDeposit

/-- What the program finds around it. -/
structure Surroundings (m : Type → Type) where
  disk : Disk m
  /-- Adds bytes to the end of a file, which is created if need be; gives the reason of a failure.
  -/
  append : String → Bytes → m (Option String)
  /-- The transport of requests, with the most seconds that one may take. -/
  transport : Option Nat → Http.Transport m
  log : LogFormat → LogFilter → LogEntry → m Unit
  /-- The log filter of the environment, which goes before that of the configuration. -/
  logDirectives : Option String
  /-- A name for the resource that a plan creates after so many others. -/
  freshName : Nat → String

/-- How a run of the program ended. -/
structure Outcome where
  exitCode : UInt32
  output : List String
  messages : List String
  deriving DecidableEq, Repr, Inhabited

namespace Program

def name : String := "ldp-deposit"

def version : String := "0.1.0"

def usage : List String :=
  ["Deposit linked resource packages into an LDP repository",
    "",
    "Usage: ldp-deposit deposit [OPTIONS] <PACKAGE>",
    "       ldp-deposit plan [--target <URL>] <PACKAGE>",
    "",
    "Options of deposit:",
    "  -c, --config <CONFIG>  TOML configuration file",
    "      --base-url <URL>   Repository REST endpoint (overrides the config file)",
    "      --target <URL>     Container receiving the package roots (default: the base URL)",
    "      --no-transaction   Deposit without a repository transaction",
    "      --events <FILE>    Append deposit events as JSON lines to this file"]

/-- The end of a run that failed. -/
def failed (e : DepositError) : Outcome := ⟨1, [], ["Error: " ++ e.message]⟩

/-- The filter of the log: the environment's if it can be read, else that of the settings. -/
def logFilter (environment : Option String) (level : String) : Except DepositError LogFilter :=
  match environment.bind LogFilter.ofString? with
  | some filter => .ok filter
  | none =>
    match LogFilter.ofString? level with
    | some filter => .ok filter
    | none => .error (.config ("Invalid log level '" ++ level ++ "'"))

/-- The settings with what the command line changes. -/
def override (args : DepositArguments) (c : Config) : Config :=
  { c with
    repository := { c.repository with
      baseUrl := args.baseUrl.getD c.repository.baseUrl
      useTransactions := c.repository.useTransactions && !args.noTransaction }
    targetContainer := args.target.orElse fun _ => c.targetContainer }

section Commands

variable {m : Type → Type} [Monad m] (s : Surroundings m)

/-- The settings of a deposit. -/
def settings (args : DepositArguments) : ExceptT DepositError m Config := do
  let config ← match args.config with
    | some path => do
      let view ← s.disk path
      liftM (Config.ofFile path view)
    | none => pure {}
  let config := override args config
  liftM config.validate
  return config

/-- Opens the file of events. -/
def openEvents (path : Option String) : ExceptT DepositError m Unit := do
  match path with
  | some path =>
    match ← s.append path [] with
    | some reason => throw (.io reason)
    | none => pure ()
  | none => pure ()

/-- Tells the log and the file of events of an event. An event that cannot be written is lost. -/
def announce (format : LogFormat) (filter : LogFilter) (events : Option String) (e : Event) :
    m Unit := do
  s.log format filter (LogEntry.ofEvent e)
  match events with
  | some path =>
    let _ ← s.append path (Text.toUtf8 (Sink.line e))
  | none => pure ()

/-- Deposits a package over HTTP. -/
def runDeposit (args : DepositArguments) : ExceptT DepositError m Outcome := do
  let config ← settings s args
  let filter ← liftM (logFilter s.logDirectives config.logging.level)
  let tree ← loadPackage s.disk args.package
  openEvents s args.events
  let client : Ldp.Client m :=
    ⟨config.repository, s.disk, s.transport config.repository.timeoutSeconds⟩
  let notify (e : Event) : StateT Ldp.State m Unit :=
    liftM (announce s config.logging.format filter args.events e)
  let run := depositPackage notify client.openSession tree config.target
  let (result, _) ← (run.run Ldp.State.initial : m _)
  let report ← liftM result
  return ⟨0, [], ["Deposited " ++ args.package ++ " into " ++ config.target ++ ": " ++
    report.summary]⟩

/-- The files that the binaries of a tree are read from, as they are found now. -/
def readFiles (tree : List Resource) : m Files := do
  let views ← (Resource.allPaths tree).mapM fun path => do return (path, ← s.disk path)
  return fun path => ((views.find? (·.1 = path)).map (·.2)).getD (.failure FileView.noSuchFile)

/-- What a plan shows of an event. -/
def planLine? (e : EventRecord) : Option String :=
  match e.kind with
  | .deposit => some ((e.resourceKind.map ResourceKind.name).getD "resource" ++ " " ++
      e.localId.getD "?" ++ " -> " ++ e.uri.getD "?")
  | .remap => some ("remap " ++ e.uri.getD "?" ++ " (" ++ e.detail.getD "" ++ ")")
  | _ => none

/-- The level up to which a plan logs. -/
def planLevel : String := "warn"

/-- Deposits a package into a new repository in memory; gives the report and the events. -/
def planned (host : Host) (tree : List Resource) (target : String) :
    Except DepositError Report × List Event :=
  let session := (Workspace.session host "plan").probed []
  let run := depositPackage Journal.notify (pure session) tree target
  let ((result, journal), _) := (run.run []).run (Workspace.new target)
  (result, Journal.events journal)

/-- Shows where the resources of a package would be. -/
def runPlan (args : PlanArguments) : ExceptT DepositError m Outcome := do
  let _ ← liftM (logFilter s.logDirectives planLevel)
  let tree ← loadPackage s.disk args.package
  let files ← (readFiles s tree : m Files)
  let (result, events) := planned ⟨files, s.freshName⟩ tree args.target
  let report ← liftM result
  return ⟨0, events.filterMap fun e => planLine? e.toRecord, [report.summary]⟩

/-- The end of a command. -/
def ended (run : ExceptT DepositError m Outcome) : m Outcome := do
  match ← run.run with
  | .ok outcome => return outcome
  | .error e => return failed e

/-- Does what the arguments ask for. -/
def run (args : List String) : m Outcome :=
  match CommandLine.read args with
  | .deposit args => ended (runDeposit s args)
  | .plan args => ended (runPlan s args)
  | .version => return ⟨0, [name ++ " " ++ version], []⟩
  | .help => return ⟨0, usage, []⟩
  | .usageError => return ⟨2, [], usage⟩

end Commands

end Program

end LinkedDeposit
