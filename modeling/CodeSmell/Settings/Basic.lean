import CodeSmell.Check.DeadCode
import CodeSmell.Check.LongMethod
import CodeSmell.Json.Basic

/-!
# Settings

What a configuration decides: which files are left out, which checks run, and how they are tuned.
Whatever it does not mention has a default.

* `Settings` : the settings, by sections;
* `toJson` : the settings written out in full.
-/

namespace CodeSmell

/-- The settings of a check that can only be on or off. -/
structure Toggle where
  enabled : Bool := true
deriving DecidableEq, Repr, Inhabited

/-- The settings of the check for long methods. -/
structure LongMethodSettings where
  enabled : Bool := true
  threshold : Nat := defaultThreshold
deriving DecidableEq, Repr, Inhabited

/-- The settings of the check for dead code. -/
structure DeadCodeSettings where
  enabled : Bool := true
  options : DeadCodeOptions := {}
deriving Repr, Inhabited

/-- The settings of a scan. -/
structure Settings where
  version : String := ""
  /-- Patterns for paths that are never loaded. -/
  excludedPaths : List String := []
  longMethods : LongMethodSettings := {}
  magicNumbers : Toggle := {}
  naming : Toggle := {}
  deadCode : DeadCodeSettings := {}
deriving Repr, Inhabited

/-- The object with one field, which says whether a check is on. -/
def Toggle.toJson (t : Toggle) : Json :=
  .object [("enabled", .bool t.enabled)]

namespace Settings

def toJson (s : Settings) : Json :=
  .object [("version", .string s.version),
    ("excluded_paths", .array (s.excludedPaths.map .string)),
    ("long_methods", .object [("enabled", .bool s.longMethods.enabled),
      ("threshold", .natural s.longMethods.threshold)]),
    ("magic_numbers", s.magicNumbers.toJson),
    ("naming", s.naming.toJson),
    ("dead_code", .object [("enabled", .bool s.deadCode.enabled),
      ("entry_points", .array (s.deadCode.options.entryPoints.map .string)),
      ("known_namespaces", .object (s.deadCode.options.knownNamespaces.map fun (path, names) =>
        (path, .array (names.map .string))))])]

end Settings

end CodeSmell
