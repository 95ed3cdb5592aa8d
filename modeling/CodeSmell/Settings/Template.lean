/-!
# The configuration to start from

* `template` : a configuration file that spells out the defaults and leaves out generated files.
-/

namespace CodeSmell.Settings

def templateLines : List String :=
  [ "# smellcheck configuration",
    "version: \"1\"",
    "",
    "# Glob patterns (relative to the scanned directory) that are never loaded.",
    "excluded_paths:",
    "  - \"**/*.g.cs\"",
    "  - \"**/*.Designer.cs\"",
    "",
    "long_methods:",
    "  enabled: true",
    "  # Methods with at least this many statements are reported.",
    "  threshold: 50",
    "",
    "magic_numbers:",
    "  enabled: true",
    "",
    "naming:",
    "  enabled: true",
    "",
    "dead_code:",
    "  enabled: true",
    "  # Members called by the runtime rather than by project code.",
    "  entry_points:",
    "    - Main",
    "  # Names provided by namespaces outside the project, for unused-import",
    "  # checks. Namespaces nothing is known about are never reported.",
    "  known_namespaces: \x7b\x7d"]

def template : String :=
  String.join (templateLines.map (· ++ "\n"))

end CodeSmell.Settings
