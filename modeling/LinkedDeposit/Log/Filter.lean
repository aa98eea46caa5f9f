import LinkedDeposit.Text.Blank
import LinkedDeposit.Text.Cut

/-!
# Log filters

A filter is a list of directives between commas. A directive names a level, or a target, a span in
brackets, or both, with the level up to which they are logged: `warn`, `ldp_deposit=debug`,
`ldp_deposit[walk]=off`. A directive without a level logs everything.
-/

namespace LinkedDeposit

/-- How much a log entry matters. -/
inductive LogLevel where
  | error
  | warn
  | info
  | debug
  | trace
  deriving DecidableEq, Repr, Inhabited

namespace LogLevel

def name : LogLevel → String
  | error => "ERROR"
  | warn => "WARN"
  | info => "INFO"
  | debug => "DEBUG"
  | trace => "TRACE"

/-- The number of levels up to this one. -/
def rank : LogLevel → Nat
  | error => 1
  | warn => 2
  | info => 3
  | debug => 4
  | trace => 5

end LogLevel

/-- What a directive lets through: the number of levels, `0` for none. -/
structure LogDirective where
  target : Option String
  span : Option String
  levels : Nat
  deriving DecidableEq, Repr, Inhabited

abbrev LogFilter := List LogDirective

namespace LogFilter

/-- The number of levels that a name stands for. -/
def levels? (s : List Char) : Option Nat :=
  match String.ofList (s.map Char.toLower) with
  | "off" | "0" => some 0
  | "error" | "1" => some 1
  | "warn" | "2" => some 2
  | "info" | "3" => some 3
  | "debug" | "4" => some 4
  | "trace" | "5" => some 5
  | _ => none

/-- The levels of a directive that gives none. -/
def allLevels : Nat := 5

/-- The levels after a target or a span. -/
def levelPart? (s : List Char) : Option Nat :=
  match s with
  | [] | ['='] => some allLevels
  | '=' :: level => levels? level
  | _ => none

/-- Whether a directive may begin with a character. -/
def beginsDirective (c : Char) : Bool :=
  c.isAlphanum || 0x80 ≤ c.toNat || c = '-' || c = ':' || c = '_'

/-- A name that is left out when it is empty. -/
def nonempty (s : List Char) : Option String := if s.isEmpty then none else some (String.ofList s)

/-- A span after its bracket, with fields in braces perhaps, and what follows it. -/
def spanPart? (s : List Char) : Option (Option String × List Char) :=
  let name := s.takeWhile fun c => c ≠ ']' && c ≠ '\x7b'
  match s.drop name.length with
  | ']' :: rest => some (nonempty name, rest)
  | '\x7b' :: fields =>
    match fields.dropWhile (· ≠ '\x7d') with
    | '\x7d' :: ']' :: rest => some (nonempty name, rest)
    | _ => none
  | _ => none

/-- Reads a directive. -/
def directive? (s : List Char) : Option LogDirective :=
  match s with
  | [] => none
  | c :: _ =>
    let target := s.takeWhile fun c => c ≠ '=' && c ≠ '['
    if c ≠ '[' && !beginsDirective c then none
    else
      match s.drop target.length with
      | [] =>
        match levels? target with
        | some levels => some ⟨none, none, levels⟩
        | none => some ⟨nonempty target, none, allLevels⟩
      | '[' :: rest => do
        let (span, rest) ← spanPart? rest
        return ⟨nonempty target, span, ← levelPart? rest⟩
      | rest => do return ⟨nonempty target, none, ← levelPart? rest⟩

/-- Reads a filter. Nothing between two commas does not count. -/
def ofString? (s : String) : Option LogFilter :=
  (((Text.splitAt (· = ',') s.toList).filter (! ·.isEmpty)).map Text.trimBlank).mapM directive?

/-- Whether a directive speaks of a target outside spans. -/
def concerns (target : String) (d : LogDirective) : Bool :=
  d.span.isNone && d.target.all fun t => (Text.dropPrefix? t target).isSome

/-- The levels that a filter lets through for a target: those of the directive with the longest
target. A filter without directives lets errors through. -/
def levelsFor (f : LogFilter) (target : String) : Nat :=
  if f.isEmpty then 1
  else
    ((f.filter (concerns target)).foldl (fun (best : Nat × Nat) d =>
      let length := d.target.elim 0 fun t => t.length + 1
      if best.1 ≤ length then (length, d.levels) else best) (0, 0)).2

/-- Whether an entry of a level passes. -/
def allows (f : LogFilter) (target : String) (level : LogLevel) : Bool :=
  level.rank ≤ f.levelsFor target

example : (ofString? "").isSome ∧ (ofString? "info").isSome ∧ (ofString? "a=debug,b=warn").isSome ∧
    ofString? "a=loud" = none := by decide +kernel

example : ((ofString? "warn,a=debug").map fun f => (f.allows "a::b" .debug, f.allows "c" .info)) =
    some (true, false) := by decide +kernel

end LogFilter

end LinkedDeposit
