import CodeSmell.CommandLine.Arguments
import CodeSmell.FileSystem.Change
import CodeSmell.Json.Printer
import CodeSmell.Report.Pretty
import CodeSmell.Scan.Basic
import CodeSmell.Settings.Fault
import CodeSmell.Settings.File
import CodeSmell.Settings.Template

/-!
# Running commands

A command turns a file system into an outcome: an exit code, what is written to the two outputs,
and the file system afterwards.

* `Outcome` : what comes of a command;
* `scan` : reports what is found at a path;
* `init` : writes a configuration to start from, but over no file;
* `Invocation.run` : runs the command that is asked for.
-/

namespace CodeSmell.CommandLine

/-- What comes of a command. -/
structure Outcome where
  exitCode : Nat
  output : String := ""
  /-- The lines for the user. -/
  messages : List String := []
  fileSystem : FileSystem
deriving Inhabited

/-- The exit code of a scan that finds nothing, and of a command that has done its work. -/
def exitClean : Nat := 0

def exitFindings : Nat := 1

def exitError : Nat := 2

def failed (fs : FileSystem) (messages : List String) : Outcome where
  exitCode := exitError
  messages := messages
  fileSystem := fs

/-- How findings are reported. -/
inductive Format where
  | pretty
  | json
  | sarif
deriving DecidableEq, Repr, Inhabited

def Format.ofLabel? : String → Option Format
  | "pretty" => some .pretty
  | "json" => some .json
  | "sarif" => some .sarif
  | _ => none

/-- The report on a scan of a path, which is also given in full. -/
def Format.render (f : Format) (color : Bool) (path full : String) (r : ScanResult) : String :=
  match f with
  | .pretty => Report.pretty color path r
  | .json => (Report.JsonReport.ofResult path r).toJson.pretty ++ "\n"
  | .sarif => (Report.SarifReport.ofResult full r).toJson.pretty ++ "\n"

/-- The configuration file that is in force for a scan: the one beside what is scanned, or else the
one where the command is run. -/
def discoverConfig? (fs : FileSystem) (full : String) : Option String :=
  let beside := if fs.isDirectory full then some full else Path.parent? full
  match beside.bind (Settings.discover? fs) with
  | some path => some path
  | none => Settings.discover? fs "."

/-- The settings in force for a scan, or the file that gives none and why. -/
def settingsFor (fs : FileSystem) (full : String) (config : Option String) :
    Except (String × Settings.LoadFault) Settings :=
  match config <|> discoverConfig? fs full with
  | none => .ok {}
  | some path => (Settings.load fs path).mapError fun f => (path, f)

def badFormatMessage (format : String) : String :=
  "Error: invalid format " ++ Text.quoted format ++ ", must be 'pretty', 'json', or 'sarif'"

def badPathMessage (path : String) (f : FileSystem.Fault) : String :=
  "Error: cannot access path " ++ Text.quotedPath path ++ ": " ++ f.message

def ScanArguments.scan (a : ScanArguments) (settings : Settings) : Scan where
  settings := settings
  checks := a.checks
  threshold := a.threshold
  maxFindings := a.maxFindings

def reported (fs : FileSystem) (report : String) (r : ScanResult) : Outcome where
  exitCode := if r.isClean then exitClean else exitFindings
  output := report
  messages := if r.scanned = 0 then ["Warning: no C# files to scan"] else []
  fileSystem := fs

/-- Reports what is found at a path. -/
def scan (grammar : Grammar) (color : Bool) (fs : FileSystem) (a : ScanArguments) : Outcome :=
  match Format.ofLabel? a.format with
  | none => failed fs [badFormatMessage a.format]
  | some format =>
    match fs.canonical a.path with
    | .error f => failed fs [badPathMessage a.path f]
    | .ok full =>
      match settingsFor fs full a.config with
      | .error (path, f) => failed fs ["Error parsing config " ++ path ++ ": " ++ f.message]
      | .ok settings =>
        match settings.fault? with
        | some f => failed fs ["Error: invalid config: " ++ f.message]
        | none =>
          match (a.scan settings).run grammar fs full with
          | .error bad => failed fs ["Error: " ++ bad.message]
          | .ok r => reported fs (format.render color a.path full r) r

def createdText (path : String) : String :=
  String.join (["Created " ++ path,
    "",
    "Next steps:",
    "  1. Edit " ++ path ++ " to customize for your project",
    "  2. Run: smellcheck scan . --config " ++ path].map (· ++ "\n"))

/-- Makes the directory that a path is in, if the path names one. -/
def makeParent (fs : FileSystem) (path : String) : FileSystem × Option FileSystem.Fault :=
  match Path.parent? path with
  | none => (fs, none)
  | some parent =>
    if parent.isEmpty || Path.same parent "." then (fs, none) else fs.makeDirectories parent

/-- Writes a configuration to start from. -/
def init (fs : FileSystem) (path : String) : Outcome :=
  if fs.holds path then
    failed fs ["Error: file already exists: " ++ path,
      "Remove it or use --output to specify a different path"]
  else
    match makeParent fs path with
    | (fs, some f) => failed fs ["Error: failed to create directory: " ++ f.message]
    | (fs, none) =>
      match fs.write path Settings.template.toUTF8 with
      | .error f => failed fs ["Error: failed to write config: " ++ f.message]
      | .ok fs => { exitCode := exitClean, output := createdText path, fileSystem := fs }

def Invocation.run (grammar : Grammar) (color : Bool) (fs : FileSystem) (i : Invocation) :
    Outcome :=
  match i.command with
  | .scan a => scan grammar color fs a
  | .init path => init fs path

end CodeSmell.CommandLine
