/-!
# Command lines

What the arguments of the program ask for. Options may stand before and after the package, with
their value behind an equals sign or as the next argument, and `--` ends them; an option given twice
is refused. Anything that is not understood is a usage error.
-/

namespace LinkedDeposit

/-- What a deposit is asked to do. -/
structure DepositArguments where
  package : String
  config : Option String := none
  baseUrl : Option String := none
  target : Option String := none
  noTransaction : Bool := false
  /-- The file that events are appended to. -/
  events : Option String := none
  deriving DecidableEq, Repr, Inhabited

/-- What a plan is asked for. -/
structure PlanArguments where
  package : String
  target : String := "http://localhost:8080/rest"
  deriving DecidableEq, Repr, Inhabited

/-- What the program is asked for. -/
inductive Invocation where
  | deposit (args : DepositArguments)
  | plan (args : PlanArguments)
  | version
  | help
  | usageError
  deriving DecidableEq, Repr, Inhabited

namespace CommandLine

/-- An option of a command. -/
structure OptionSpec where
  name : String
  short : Option Char
  /-- Whether the option takes a value. -/
  takesValue : Bool
  /-- Whether an empty value counts as one. -/
  mayBeEmpty : Bool
  deriving DecidableEq, Repr

def depositOptions : List OptionSpec :=
  [⟨"config", some 'c', true, false⟩, ⟨"base-url", none, true, true⟩,
    ⟨"target", none, true, true⟩, ⟨"no-transaction", none, false, false⟩,
    ⟨"events", none, true, false⟩]

def planOptions : List OptionSpec := [⟨"target", none, true, true⟩]

/-- What the arguments of a command were found to be. -/
structure Parsed where
  operands : List String
  /-- The options given, with their values. -/
  options : List (String × String)
  deriving Repr

/-- Why a command's arguments were not read to their end. -/
inductive Stop where
  | help
  | usageError
  deriving Repr

/-- Adds an option. -/
def addOption (p : Parsed) (spec : OptionSpec) (value : String) : Except Stop Parsed :=
  if (p.options.any fun o => o.1 = spec.name) || (spec.takesValue && value = "" && !spec.mayBeEmpty)
  then .error .usageError
  else .ok { p with options := p.options ++ [(spec.name, value)] }

/-- Whether an argument can only be an option. -/
def looksLikeOption (s : String) : Bool :=
  match s.toList with
  | '-' :: _ :: _ => true
  | _ => false

/-- Gives an option its value: the attached one, or the next argument. -/
def giveValue (p : Parsed) (spec : OptionSpec) (attached : Option String) (rest : List String) :
    Except Stop (Parsed × Bool) :=
  match spec.takesValue, attached, rest with
  | true, some value, _ => (addOption p spec value).map (·, false)
  | true, none, value :: _ =>
    if looksLikeOption value then .error .usageError
    else (addOption p spec value).map (·, true)
  | true, none, [] => .error .usageError
  | false, some _, _ => .error .usageError
  | false, none, _ => (addOption p spec "").map (·, false)

/-- Reads a long option after its dashes. The flag tells whether the next argument was taken. -/
def longOption (specs : List OptionSpec) (p : Parsed) (s : List Char) (rest : List String) :
    Except Stop (Parsed × Bool) :=
  let name := String.ofList (s.takeWhile (· ≠ '='))
  let attached := (s.dropWhile (· ≠ '=')).tail?.map String.ofList
  if name = "help" && attached.isNone then .error .help
  else
    match specs.find? (·.name = name) with
    | some spec => giveValue p spec attached rest
    | none => .error .usageError

/-- Reads a short option after its dash. What follows its letter is its value. -/
def shortOption (specs : List OptionSpec) (p : Parsed) (c : Char) (s : List Char)
    (rest : List String) : Except Stop (Parsed × Bool) :=
  if c = 'h' then .error .help
  else
    match specs.find? (·.short = some c) with
    | some spec =>
      let value := match s with
        | '=' :: s => s
        | s => s
      giveValue p spec (if s.isEmpty then none else some (String.ofList value)) rest
    | none => .error .usageError

/-- Reads the arguments of a command. -/
def parse (specs : List OptionSpec) : (skip : Bool) → Parsed → List String → Except Stop Parsed
  | _, p, [] => .ok p
  | true, p, _ :: rest => parse specs false p rest
  | false, p, arg :: rest =>
    match arg.toList with
    | ['-', '-'] => .ok { p with operands := p.operands ++ rest }
    | '-' :: '-' :: s => do
      let (p, taken) ← longOption specs p s rest
      parse specs taken p rest
    | '-' :: c :: s => do
      let (p, taken) ← shortOption specs p c s rest
      parse specs taken p rest
    | _ => parse specs false { p with operands := p.operands ++ [arg] } rest

/-- The value of an option. -/
def value? (p : Parsed) (name : String) : Option String :=
  (p.options.find? (·.1 = name)).map (·.2)

/-- Reads the arguments of a command that has one operand, the package. -/
def command (specs : List OptionSpec) (args : List String)
    (make : String → (String → Option String) → Invocation) : Invocation :=
  match parse specs false ⟨[], []⟩ args with
  | .ok p =>
    match p.operands with
    | [package] => if package = "" then .usageError else make package (value? p)
    | _ => .usageError
  | .error .help => .help
  | .error .usageError => .usageError

/-- The names of the commands. -/
def commandNames : List String := ["deposit", "plan", "help"]

/-- Reads what the help command is asked for. -/
def helpOn : List String → Invocation
  | [] => .help
  | [name] => if name ∈ commandNames then .help else .usageError
  | _ => .usageError

/-- Reads the arguments of the program. -/
def read : List String → Invocation
  | [] => .usageError
  | arg :: rest =>
    match arg with
    | "deposit" => command depositOptions rest fun package value? => .deposit {
        package
        config := value? "config"
        baseUrl := value? "base-url"
        target := value? "target"
        noTransaction := (value? "no-transaction").isSome
        events := value? "events" }
    | "plan" => command planOptions rest fun package value? =>
        let defaults : PlanArguments := { package }
        .plan { package, target := (value? "target").getD defaults.target }
    | "help" => helpOn rest
    | "--version" => .version
    | "--help" => .help
    | arg =>
      match arg.toList with
      | '-' :: 'V' :: _ => .version
      | '-' :: 'h' :: _ => .help
      | _ => .usageError

end CommandLine

end LinkedDeposit
