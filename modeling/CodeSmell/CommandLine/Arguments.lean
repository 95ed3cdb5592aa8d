import CodeSmell.Scan.Check

/-!
# Arguments

The command line is a command with options and a path. A value that follows its option as an
argument of its own is taken in only when the next thing is, so that of two faults the later one
may be told.

* `Refusal` : why arguments are not run;
* `Invocation` : what arguments ask for;
* `Level` : the commands, with the options that each has;
* `Parsing` : what has been read; `Parsing.step` : reads one argument;
* `Invocation.parse` : what a list of arguments asks for.
-/

namespace CodeSmell.CommandLine

/-- Why arguments are not run. -/
inductive Refusal where
  /-- They ask for help. -/
  | help
  /-- They ask for the version. -/
  | version
  /-- There are none. -/
  | nothing
  | missingCommand
  | unknownCommand
  | unknownArgument
  | missingPath
  /-- A value is missing, or is none of those that are allowed. -/
  | invalidValue
  /-- A value is no number. -/
  | notNumber
  /-- A flag is given a value. -/
  | unneededValue
  /-- An option is given twice. -/
  | repeated
deriving DecidableEq, Repr, Inhabited

namespace Refusal

/-- The name of a refusal. -/
def label : Refusal → String
  | help => "DisplayHelp"
  | version => "DisplayVersion"
  | nothing => "DisplayHelpOnMissingArgumentOrSubcommand"
  | missingCommand => "MissingSubcommand"
  | unknownCommand => "InvalidSubcommand"
  | unknownArgument => "UnknownArgument"
  | missingPath => "MissingRequiredArgument"
  | invalidValue => "InvalidValue"
  | notNumber => "ValueValidation"
  | unneededValue => "TooManyValues"
  | repeated => "ArgumentConflict"

/-- The exit code of a refusal: to ask for help or the version is no mistake. -/
def exitCode : Refusal → Nat
  | help | version => 0
  | _ => 2

end Refusal

/-- What the scan command is asked for. -/
structure ScanArguments where
  path : String
  config : Option String := none
  checks : List Check := []
  threshold : Option Nat := none
  format : String := "pretty"
  maxFindings : Option Nat := none
deriving DecidableEq, Repr, Inhabited

/-- A command. -/
inductive Command where
  | scan (arguments : ScanArguments)
  | init (output : String)
deriving DecidableEq, Repr, Inhabited

/-- What arguments ask for. -/
structure Invocation where
  /-- How often they ask for more log records. -/
  verbose : Nat
  command : Command
deriving DecidableEq, Repr, Inhabited

/-- The least grade of log records that are written. -/
def Invocation.logLevel (i : Invocation) : String :=
  match i.verbose with
  | 0 => "warn"
  | 1 => "info"
  | _ => "debug"

/-! ## Options -/

/-- What takes a value. -/
inductive Parameter where
  | path
  | config
  | check
  | threshold
  | format
  | maxFindings
  | output
deriving DecidableEq, Repr, Inhabited

/-- What can be asked for by name. -/
inductive Switch where
  | verbose
  | help
  | version
  | parameter (p : Parameter)
deriving DecidableEq, Repr, Inhabited

/-- The command whose arguments are read. -/
inductive Level where
  | root
  | scan
  | init
deriving DecidableEq, Repr, Inhabited

namespace Level

def ofName? : String → Option Level
  | "scan" | "check" => some scan
  | "init" => some init
  | _ => none

def long? (level : Level) (name : String) : Option Switch :=
  match level, name with
  | _, "verbose" => some .verbose
  | _, "help" => some .help
  | root, "version" => some .version
  | scan, "config" => some (.parameter .config)
  | scan, "check" => some (.parameter .check)
  | scan, "threshold" => some (.parameter .threshold)
  | scan, "format" => some (.parameter .format)
  | scan, "max-findings" => some (.parameter .maxFindings)
  | init, "output" => some (.parameter .output)
  | _, _ => none

def short? (level : Level) (letter : Char) : Option Switch :=
  match level, letter with
  | _, 'v' => some .verbose
  | _, 'h' => some .help
  | root, 'V' => some .version
  | scan, 'c' => some (.parameter .config)
  | scan, 't' => some (.parameter .threshold)
  | scan, 'f' => some (.parameter .format)
  | init, 'o' => some (.parameter .output)
  | _, _ => none

end Level

/-! ## Values -/

/-- The values that have been taken in. -/
structure Given where
  path : Option String := none
  config : Option String := none
  checks : List Check := []
  threshold : Option Nat := none
  format : Option String := none
  maxFindings : Option Nat := none
  output : Option String := none
  verbose : Nat := 0
deriving DecidableEq, Repr, Inhabited

/-- A path, which may not be empty. -/
def readPath (s : String) : Except Refusal String :=
  if s.isEmpty then .error .invalidValue else .ok s

/-- A number below 2^64 in decimal digits, with a plus sign or without. -/
def readNatural (s : String) : Except Refusal Nat :=
  let digits :=
    match s.toList with
    | '+' :: cs => cs
    | cs => cs
  let n := digits.foldl (fun n c => 10 * n + (c.toNat - 48)) 0
  if !digits.isEmpty && digits.all Char.isDigit && n < Nat.pow 2 64 then .ok n
  else .error .notNumber

def once {α : Type} (before : Option α) (read : String → Except Refusal α) (s : String) :
    Except Refusal (Option α) :=
  if before.isSome then .error .repeated else (read s).map some

namespace Given

def accept (g : Given) (p : Parameter) (s : String) : Except Refusal Given :=
  match p with
  | .path => (once g.path readPath s).map fun v => { g with path := v }
  | .config => (once g.config readPath s).map fun v => { g with config := v }
  | .check =>
    match Check.ofLabel? s with
    | some c => .ok { g with checks := g.checks ++ [c] }
    | none => .error .invalidValue
  | .threshold => (once g.threshold readNatural s).map fun v => { g with threshold := v }
  | .format => (once g.format .ok s).map fun v => { g with format := v }
  | .maxFindings => (once g.maxFindings readNatural s).map fun v => { g with maxFindings := v }
  | .output => (once g.output readPath s).map fun v => { g with output := v }

end Given

/-! ## Reading arguments -/

/-- What has been read. -/
structure Parsing where
  level : Level := .root
  given : Given := {}
  /-- How often more log records were asked for before the command. -/
  outerVerbose : Nat := 0
  /-- What waits to be taken in, with its value once that has been read. -/
  waiting : Option (Parameter × Option String) := none
  /-- Whether two dashes have said that no options follow. -/
  trailing : Bool := false
  /-- Whether the path has been read. -/
  hasPath : Bool := false
deriving DecidableEq, Repr, Inhabited

namespace Parsing

/-- Takes in what waits; a value that has not come is missing. -/
def settle (p : Parsing) : Except Refusal Parsing :=
  match p.waiting with
  | none => .ok p
  | some (_, none) => .error .invalidValue
  | some (a, some s) => (p.given.accept a s).map fun g => { p with given := g, waiting := none }

/-- The number of requests that are told apart. -/
def verboseLimit : Nat := 255

def raise (p : Parsing) (s : Switch) : Except Refusal Parsing :=
  p.settle.bind fun p =>
    match s with
    | .verbose =>
      .ok { p with given := { p.given with verbose := min (p.given.verbose + 1) verboseLimit } }
    | .version => .error .version
    | _ => .error .help

/-- Takes in an option with the value that is attached to it, or waits for its value. -/
def expect (p : Parsing) (a : Parameter) (attached : Option String) : Except Refusal Parsing :=
  p.settle.bind fun p =>
    match attached with
    | some s => (p.given.accept a s).map fun g => { p with given := g }
    | none => .ok { p with waiting := some (a, none) }

def splitEquals (cs : List Char) : String × Option String :=
  let name := String.ofList (cs.takeWhile (· != '='))
  match cs.dropWhile (· != '=') with
  | [] => (name, none)
  | _ :: value => (name, some (String.ofList value))

def long (p : Parsing) (cs : List Char) : Except Refusal Parsing :=
  let (name, attached) := splitEquals cs
  match p.level.long? name, attached with
  | none, _ => .error .unknownArgument
  | some (.parameter a), attached => p.expect a attached
  | some _, some _ => .error .unneededValue
  | some s, none => p.raise s

/-- The value that is attached to a letter. -/
def attachedTo : List Char → Option String
  | [] => none
  | '=' :: cs => some (String.ofList cs)
  | cs => some (String.ofList cs)

def short (p : Parsing) : List Char → Except Refusal Parsing
  | [] => .ok p
  | c :: rest =>
    match p.level.short? c with
    | none => .error .unknownArgument
    | some (.parameter a) => p.expect a (attachedTo rest)
    | some s => (p.raise s).bind fun p => p.short rest

/-- Reads an argument that is no option and no value of one. -/
def positional (p : Parsing) (arg : String) : Except Refusal Parsing :=
  match p.level with
  | .root =>
    if p.trailing && ((Level.ofName? arg).isSome || arg == "help") then .error .unknownArgument
    else .error .unknownCommand
  | .init => .error .unknownArgument
  | .scan =>
    if p.hasPath then .error .unknownArgument
    else p.settle.map fun p => { p with waiting := some (.path, some arg), hasPath := true }

def enter (p : Parsing) (level : Level) : Parsing :=
  { level := level, outerVerbose := p.given.verbose }

/-- Reads an argument where no option waits for it. -/
def free (p : Parsing) (arg : String) : Except Refusal Parsing :=
  match p.level, Level.ofName? arg with
  | .root, some level => .ok (p.enter level)
  | _, _ => p.positional arg

def step (p : Parsing) (arg : String) : Except Refusal Parsing :=
  if p.trailing then p.positional arg
  else
    match arg.toList with
    | ['-', '-'] => .ok { p with trailing := true }
    | '-' :: '-' :: cs => p.long cs
    | '-' :: c :: cs => p.short (c :: cs)
    | _ =>
      match p.waiting with
      | some (a, none) => .ok { p with waiting := some (a, some arg) }
      | _ => p.free arg

/-- What a request for help with some commands comes to: none or one may be named. -/
def helpOn : List String → Refusal
  | [] => .help
  | [name] => if (Level.ofName? name).isSome || name == "help" then .help else .unknownCommand
  | _ => .unknownCommand

def run (p : Parsing) : List String → Except Refusal Parsing
  | [] => .ok p
  | arg :: rest =>
    if p.level == .root && !p.trailing && arg == "help" then .error (helpOn rest)
    else (p.step arg).bind fun p => p.run rest

def finish (p : Parsing) : Except Refusal Invocation :=
  p.settle.bind fun p =>
    let g := p.given
    let verbose := if g.verbose = 0 then p.outerVerbose else g.verbose
    match p.level, g.path with
    | .root, _ => .error (if g.verbose = 0 then .nothing else .missingCommand)
    | .scan, none => .error .missingPath
    | .scan, some path =>
      .ok ⟨verbose, .scan
        { path := path, config := g.config, checks := g.checks, threshold := g.threshold
          format := g.format.getD "pretty", maxFindings := g.maxFindings }⟩
    | .init, _ => .ok ⟨verbose, .init (g.output.getD "smellcheck.yaml")⟩

end Parsing

/-- What a list of arguments asks for. -/
def Invocation.parse (args : List String) : Except Refusal Invocation :=
  ((Parsing.run {} args).bind Parsing.finish)

end CodeSmell.CommandLine
