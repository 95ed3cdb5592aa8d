import CodeSmell.Report.Sarif

/-!
# The report for a terminal

* `Style`, `paint` : text in a colour or weight, if the terminal shows them;
* `pretty` : the whole report, a line to each item.
-/

namespace CodeSmell.Report

/-- How a text is shown. -/
inductive Style where
  | title
  | bold
  | dimmed
  | red
  | green
  | yellow
  | blue
deriving DecidableEq, Repr, Inhabited

def Style.code : Style → String
  | title => "1;36"
  | bold => "1"
  | dimmed => "2"
  | red => "31"
  | green => "32"
  | yellow => "33"
  | blue => "34"

/-- The control sequence for some numbers. -/
def control (code : String) : List Char :=
  '\x1b' :: '[' :: code.toList ++ ['m']

/-- The text with `start` behind each control sequence that ends a style. -/
def restyled (start : List Char) : List Char → List Char
  | '\x1b' :: '[' :: '0' :: 'm' :: rest => control "0" ++ start ++ restyled start rest
  | c :: rest => c :: restyled start rest
  | [] => []

def paint (color : Bool) (style : Style) (s : String) : String :=
  if color then
    let start := control style.code
    String.ofList (start ++ restyled start s.toList ++ control "0")
  else s

def padRight (width : Nat) (s : String) : String :=
  s ++ String.ofList (List.replicate (width - s.length) ' ')

def padLeft (width : Nat) (s : String) : String :=
  String.ofList (List.replicate (width - s.length) ' ') ++ s

def severityTag (color : Bool) : Severity → String
  | .warning => "    " ++ paint color .yellow "WARN " ++ " "
  | .info => "    " ++ paint color .blue "INFO " ++ " "

def violationLines (color : Bool) (v : Violation) : List String :=
  let place := if 0 < v.line then paint color .dimmed (":" ++ toString v.line) else ""
  [severityTag color v.severity ++ "   " ++ paint color .dimmed (padRight 26 v.rule.id) ++
      paint color .blue v.file ++ place,
    "            " ++ v.message,
    ""]

/-- The lines about all findings; none if there are none. -/
def findingsLines (color : Bool) : List Violation → List String
  | [] => []
  | vs =>
    ["  " ++ paint color .bold "Findings" ++ " (" ++ toString vs.length ++ "):", ""] ++
      vs.flatMap (violationLines color) ++ [""]

def countLine (color : Bool) (check : String) (count : Nat) : String :=
  let plural := if count = 1 then "" else "s"
  let line :=
    "    " ++ padRight 20 check ++ " " ++ padLeft 4 (toString count) ++ " finding" ++ plural
  if count = 0 then paint color .dimmed line else line

def statusLine (color : Bool) (r : ScanResult) : String :=
  if r.isClean then "  " ++ paint color .green "✓ CLEAN"
  else
    "  " ++ paint color .red "✗ FINDINGS" ++ "  " ++
      paint color .bold (toString r.total) ++ " total"

def prettyLines (color : Bool) (path : String) (r : ScanResult) : List String :=
  ["",
    "  " ++ paint color .title toolName ++ " v" ++ version,
    "",
    "  " ++ paint color .dimmed "Scanning: " ++ path,
    "  " ++ paint color .dimmed "Files:    " ++ toString r.scanned,
    ""] ++
    findingsLines color r.violations ++
    ["  " ++ paint color .bold "Breakdown:",
      countLine color "long methods" r.longMethods.length,
      countLine color "magic numbers" r.magicNumbers.length,
      countLine color "naming" r.namingViolations.length,
      countLine color "dead code" r.deadCode.length,
      "",
      statusLine color r,
      ""]

/-- The report of a scan of a path. -/
def pretty (color : Bool) (path : String) (r : ScanResult) : String :=
  String.join ((prettyLines color path r).map (· ++ "\n"))

end CodeSmell.Report
