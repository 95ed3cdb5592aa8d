import CodeSmell.Settings.Basic
import CodeSmell.Text.Blank
import CodeSmell.Yaml.Reader

/-!
# Reading settings

Settings are laid over the defaults: a field that is not given keeps its default, one whose name is
not known is passed over, and one with a value of the wrong kind makes the whole unreadable.

* `Form` : how records, lists and single values are seen in a format;
* `Yaml.form`, `Json.form` : the two formats that settings are read from;
* `Settings.read?` : the settings in a value of either format;
* `Settings.parse?` : the settings in a configuration file.
-/

namespace CodeSmell

/-- How the values of a format are seen. Each view gives nothing for a value of another kind. -/
structure Form (α : Type) where
  /-- The values of the fields with some names, in the order of the names. -/
  fields? : List String → α → Option (List (Option α))
  /-- The entries of a table. -/
  entries? : α → Option (List (String × α))
  items? : α → Option (List α)
  text? : α → Option String
  /-- A number below 2^64. -/
  natural? : α → Option Nat
  bool? : α → Option Bool

/-! ## Numbers and truth values in YAML -/

namespace Yaml

def digit? (base : Nat) (c : Char) : Option Nat :=
  (Scalar.hexValue? c).filter (· < base)

/-- The number below 2^64 that some digits write. -/
def digits? (base : Nat) (cs : List Char) : Option Nat :=
  if cs.isEmpty then none
  else (cs.foldlM (fun n c => (digit? base c).map (base * n + ·)) 0).filter (· < Nat.pow 2 64)

/-- The number that a text writes: in decimal digits without a zero in front, or with the base in
front. There may be a plus sign. -/
def naturalOf? (text : String) : Option Nat :=
  let unsigned :=
    match text.toList with
    | '+' :: cs => cs
    | cs => cs
  match unsigned with
  | '0' :: 'x' :: cs => digits? 16 cs
  | '0' :: 'o' :: cs => digits? 8 cs
  | '0' :: 'b' :: cs => digits? 2 cs
  | ['0'] => some 0
  | '0' :: _ => none
  | cs => digits? 10 cs

def boolOf? (text : String) : Option Bool :=
  if ["true", "True", "TRUE"].contains text then some true
  else if ["false", "False", "FALSE"].contains text then some false
  else none

namespace Document

/-- The text of a node that is a plain scalar, or a literal one that says it is of a kind. -/
def valueText? (d : Document) (kind : String) (n : Node) : Option String :=
  (d.scalar? n).bind fun (tag, s) =>
    if s.style == .plain || (s.style == .literal && tag == some ("tag:yaml.org,2002:" ++ kind)) then
      some s.text
    else none

def namedEntries? (d : Document) (n : Node) : Option (List (String × Node)) :=
  (d.entries? n).bind fun entries => entries.mapM fun (k, v) => (d.text? k).map fun k => (k, v)

/-- The value under a name, which may not stand there twice. -/
def field? (name : String) (entries : List (String × Node)) : Option (Option Node) :=
  match entries.filter (·.1 == name) with
  | [] => some none
  | [(_, v)] => some (some v)
  | _ => none

def form (d : Document) : Form Node where
  fields? := fun names n => (d.namedEntries? n).bind fun entries => names.mapM (field? · entries)
  entries? := d.namedEntries?
  items? := d.items?
  text? := d.text?
  natural? := fun n => (d.valueText? "int" n).bind naturalOf?
  bool? := fun n => (d.valueText? "bool" n).bind boolOf?

end Document

end Yaml

/-- How JSON values are seen. A record may also be the array of its first fields. -/
def Json.form : Form Json where
  fields? := fun names j =>
    match j with
    | .object entries => some (names.map fun name => entry? name entries)
    | .array items =>
      if items.length ≤ names.length then
        some (items.map some ++ List.replicate (names.length - items.length) none)
      else none
    | _ => none
  entries? := Json.entries?
  items? := Json.items?
  text? := Json.string?
  natural? := Json.natural?
  bool? := Json.bool?

/-! ## Sections -/

namespace Form

variable {α : Type}

/-- The value of a field, or its default. -/
def value? {β : Type} (read : α → Option β) (otherwise : β) : Option α → Option β
  | none => some otherwise
  | some a => read a

def strings? (f : Form α) (a : α) : Option (List String) :=
  (f.items? a).bind fun items => items.mapM f.text?

/-- The entries of a table without those that a later one of the same name replaces. -/
def lastOfEach {β : Type} : List (String × β) → List (String × β)
  | [] => []
  | (k, v) :: rest => if rest.any (·.1 == k) then lastOfEach rest else (k, v) :: lastOfEach rest

def namespaces? (f : Form α) (a : α) : Option (List (String × List String)) :=
  (f.entries? a).bind fun entries =>
    (entries.mapM fun e => (f.strings? e.2).map fun names => (e.1, names)).map lastOfEach

def toggle? (f : Form α) (a : α) : Option Toggle :=
  match f.fields? ["enabled"] a with
  | some [enabled] => do some ⟨← value? f.bool? true enabled⟩
  | _ => none

def longMethods? (f : Form α) (a : α) : Option LongMethodSettings :=
  match f.fields? ["enabled", "threshold"] a with
  | some [enabled, threshold] => do
    some ⟨← value? f.bool? true enabled, ← value? f.natural? defaultThreshold threshold⟩
  | _ => none

def deadCode? (f : Form α) (a : α) : Option DeadCodeSettings :=
  let usual : DeadCodeOptions := {}
  match f.fields? ["enabled", "entry_points", "known_namespaces"] a with
  | some [enabled, entryPoints, known] => do
    some ⟨← value? f.bool? true enabled,
      ← value? f.strings? usual.entryPoints entryPoints,
      ← value? f.namespaces? usual.knownNamespaces known⟩
  | _ => none

end Form

namespace Settings

def fieldNames : List String :=
  ["version", "excluded_paths", "long_methods", "magic_numbers", "naming", "dead_code"]

def read? {α : Type} (f : Form α) (a : α) : Option Settings :=
  let usual : Settings := {}
  match f.fields? fieldNames a with
  | some [version, excluded, long, magic, naming, dead] => do
    some
      { version := ← Form.value? f.text? usual.version version
        excludedPaths := ← Form.value? f.strings? usual.excludedPaths excluded
        longMethods := ← Form.value? f.longMethods? usual.longMethods long
        magicNumbers := ← Form.value? f.toggle? usual.magicNumbers magic
        naming := ← Form.value? f.toggle? usual.naming naming
        deadCode := ← Form.value? f.deadCode? usual.deadCode dead }
  | _ => none

def ofJson? (j : Json) : Option Settings :=
  read? Json.form j

def ofDocument? (d : Yaml.Document) : Option Settings :=
  read? d.form d.root

/-- The settings in the text of a configuration file; a blank text leaves them at their defaults. -/
def parse? (text : String) : Option Settings :=
  if Text.isBlankText text then some {} else (Yaml.Document.parse? text).bind ofDocument?

end Settings

end CodeSmell
