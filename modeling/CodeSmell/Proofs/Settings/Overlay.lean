import CodeSmell.Proofs.Settings.Fields
import Mathlib.Data.List.Nodup

/-!
# Settings are laid over the defaults

* `Form.namespaces?_perm` : a table with no key twice is read as the same table in another order;
* `Yaml.Node.ofJson` : a value written as a node;
* `Settings.Part` : the mappings in a configuration, with the names they know (`Part.rearranges`);
* `Settings.Slot` : the entries they may have; what the settings are without one (`Slot.reset`), and
  which nodes write its default (`Slot.Writes`);
* `settings_overlay` : the order of entries and those with unknown names do not matter, and to leave out
  an entry is to write its default.
-/

namespace CodeSmell

open Yaml (Document Hole Node Pair)

variable {d : Document} {hole : Hole}

/-! ## Tables -/

namespace Form

theorem lastOfEach_eq_self {β : Type} {entries : List (String × β)}
    (h : (entries.map (·.1)).Nodup) : lastOfEach entries = entries := by
  induction entries with
  | nil => rfl
  | cons e rest ih =>
    obtain ⟨key, value⟩ := e
    obtain ⟨hkey, hrest⟩ := List.nodup_cons.mp h
    have hnot : rest.any (·.1 == key) = false := by
      rw [List.any_eq_false]
      intro e he heq
      exact hkey (List.mem_map.mpr ⟨e, he, beq_iff_eq.mp heq⟩)
    rw [lastOfEach, hnot, if_neg (by decide), ih hrest]

theorem namespaces?_eq_some_iff {n : Node} {table : List (String × List String)} :
    d.form.namespaces? n = some table ↔ ∃ named, d.namedEntries? n = some named ∧ ∃ listed,
      List.Forall₂ (fun e entry => (d.form.strings? e.2).map (fun names => (e.1, names)) = some entry)
        named listed ∧ lastOfEach listed = table := by
  show (d.namedEntries? n).bind _ = some table ↔ _
  simp only [Option.bind_eq_some_iff, Option.map_eq_some_iff, Yaml.mapM_eq_some_iff]

theorem keys_eq_of_forall₂ {named : List (String × Node)} {listed : List (String × List String)}
    (h : List.Forall₂ (fun e entry => (d.form.strings? e.2).map (fun names => (e.1, names)) =
      some entry) named listed) : named.map (·.1) = listed.map (·.1) := by
  rw [← List.forall₂_eq_eq_eq, List.forall₂_map_left_iff, List.forall₂_map_right_iff]
  refine h.imp fun e entry hentry => ?_
  obtain ⟨names, -, rfl⟩ := Option.map_eq_some_iff.mp hentry
  rfl

/-- In another order of its entries a table is the same, in another order. -/
theorem namespaces?_perm {entries entries' : List Pair} (hperm : entries.Perm entries')
    (hkeys : (entries.map fun e => d.text? e.1).Nodup) {table : List (String × List String)}
    (h : d.form.namespaces? (.mapping entries) = some table) :
    ∃ table', table'.Perm table ∧ d.form.namespaces? (.mapping entries') = some table' := by
  obtain ⟨named, hnamed, listed, hlisted, rfl⟩ := namespaces?_eq_some_iff.mp h
  have hentries := Yaml.mapM_eq_some_iff.mp hnamed
  obtain ⟨named', hentries', hnamedPerm⟩ := List.perm_comp_forall₂ hperm.symm hentries
  obtain ⟨listed', hlisted', hlistedPerm⟩ := List.perm_comp_forall₂ hnamedPerm hlisted
  have htexts : entries.map (fun e => d.text? e.1) = (named.map (·.1)).map some := by
    rw [List.map_map, ← List.forall₂_eq_eq_eq, List.forall₂_map_left_iff, List.forall₂_map_right_iff]
    refine hentries.imp fun e entry hentry => ?_
    obtain ⟨key, hkey, rfl⟩ := Option.map_eq_some_iff.mp hentry
    exact hkey
  have hnodup : (listed.map (·.1)).Nodup := by
    rw [← keys_eq_of_forall₂ hlisted]
    rw [htexts] at hkeys
    exact List.Nodup.of_map some hkeys
  refine ⟨listed', ?_, namespaces?_eq_some_iff.mpr
    ⟨named', Yaml.mapM_eq_some_iff.mpr hentries', listed', hlisted', ?_⟩⟩
  · rw [lastOfEach_eq_self hnodup]
    exact hlistedPerm
  · exact lastOfEach_eq_self ((hlistedPerm.map (·.1)).nodup_iff.mpr hnodup)

end Form

/-! ## Writing -/

namespace Yaml.Node

/-- A text without quotes. -/
def plain (text : String) : Node :=
  scalar none ⟨text, .plain⟩

/-- A text in quotes. -/
def quoted (text : String) : Node :=
  scalar none ⟨text, .quoted⟩

mutual

def ofJson : Json → Node
  | .null => plain "null"
  | .bool value => plain (if value then "true" else "false")
  | .natural value => plain (toString value)
  | .numeral written => plain written
  | .string value => quoted value
  | .array items => sequence (ofItems items)
  | .object entries => mapping (ofEntries entries)

def ofItems : List Json → List Node
  | [] => []
  | item :: rest => ofJson item :: ofItems rest

def ofEntries : List (String × Json) → List Pair
  | [] => []
  | (key, value) :: rest => (quoted key, ofJson value) :: ofEntries rest

end

end Yaml.Node

namespace Settings

/-! ## Mappings -/

/-- A mapping in a configuration: the whole, or a section. -/
inductive Part where
  | whole
  | longMethods
  | magicNumbers
  | naming
  | deadCode
deriving DecidableEq, Repr

namespace Part

/-- The keys that lead to a mapping. -/
def path : Part → List String
  | whole => []
  | longMethods => ["long_methods"]
  | magicNumbers => ["magic_numbers"]
  | naming => ["naming"]
  | deadCode => ["dead_code"]

def fieldNames : Part → List String
  | whole => Settings.fieldNames
  | longMethods => LongMethodSettings.fieldNames
  | magicNumbers | naming => Toggle.fieldNames
  | deadCode => DeadCodeSettings.fieldNames

section Section

variable {τ : Type} {X : RecordField Settings τ} {value : Node → Option τ} {names : List String}
  {made : (String → Option Node) → τ → Prop}
  (hX : X.In Settings.fieldNames value (MadeOf d.form)) (hvalue : ReadsRecord d names made value)
  (h : hole.path? d = some [X.name])
include hX hvalue h

/-- What becomes of a section if one of its fields is left out or has another value becomes of the
whole. -/
theorem lies_section {β : Type} {x : RecordField τ β} {read : Node → Option β}
    (hx : x.In names read made) : (x.inside X).Lies d hole (read? d.form) read := by
  obtain ⟨before, key, inner, after, rfl, hkey, hinner⟩ := Hole.path?_eq_cons h
  obtain ⟨above, below, rfl⟩ := Hole.path?_eq_nil hinner
  exact (hX.lies (readsRecord d) before after).under (hx.lies hvalue above below) hkey

theorem rearranges_section {entries entries' : List Pair}
    (hentries : d.Rearranges names entries entries') :
    read? d.form (hole.fill entries') = read? d.form (hole.fill entries) := by
  obtain ⟨before, key, inner, after, rfl, hkey, hinner⟩ := Hole.path?_eq_cons h
  obtain ⟨above, below, rfl⟩ := Hole.path?_eq_nil hinner
  rw [Hole.fill_under, Hole.fill_under]
  exact (hX.lies (readsRecord d) before after).congr hX.put_get hkey
    (hvalue.rearranges (hentries.between above below))

end Section

/-- The order of the entries in a mapping does not matter, nor do entries whose names it does not
know. -/
theorem rearranges (part : Part) (h : hole.path? d = some part.path) {entries entries' : List Pair}
    (hentries : d.Rearranges part.fieldNames entries entries') :
    read? d.form (hole.fill entries') = read? d.form (hole.fill entries) := by
  cases part with
  | whole =>
    obtain ⟨before, after, rfl⟩ := Hole.path?_eq_nil h
    exact (readsRecord d).rearranges (hentries.between before after)
  | longMethods =>
    exact rearranges_section (longMethodsField_in d.form) (LongMethodSettings.readsRecord d) h hentries
  | magicNumbers =>
    exact rearranges_section (magicNumbersField_in d.form) (Toggle.readsRecord d) h hentries
  | naming => exact rearranges_section (namingField_in d.form) (Toggle.readsRecord d) h hentries
  | deadCode =>
    exact rearranges_section (deadCodeField_in d.form) (DeadCodeSettings.readsRecord d) h hentries

end Part

/-! ## Entries -/

/-- An entry that a configuration may have: a section, or another field of the whole or of a
section. -/
inductive Slot where
  | version
  | excludedPaths
  | longMethods
  | longMethodsEnabled
  | threshold
  | magicNumbers
  | magicNumbersEnabled
  | naming
  | namingEnabled
  | deadCode
  | deadCodeEnabled
  | entryPoints
  | knownNamespaces
deriving DecidableEq, Repr

namespace Slot

/-- The mapping that the entry stands in. -/
def part : Slot → Part
  | version | excludedPaths | longMethods | magicNumbers | naming | deadCode => .whole
  | longMethodsEnabled | threshold => .longMethods
  | magicNumbersEnabled => .magicNumbers
  | namingEnabled => .naming
  | deadCodeEnabled | entryPoints | knownNamespaces => .deadCode

def name : Slot → String
  | version => "version"
  | excludedPaths => "excluded_paths"
  | longMethods => "long_methods"
  | magicNumbers => "magic_numbers"
  | naming => "naming"
  | deadCode => "dead_code"
  | longMethodsEnabled | magicNumbersEnabled | namingEnabled | deadCodeEnabled => "enabled"
  | threshold => "threshold"
  | entryPoints => "entry_points"
  | knownNamespaces => "known_namespaces"

def usual : Settings := {}

/-- Settings with the default for an entry, and otherwise as they were. -/
def reset (s : Settings) : Slot → Settings
  | version => { s with version := usual.version }
  | excludedPaths => { s with excludedPaths := usual.excludedPaths }
  | longMethods => { s with longMethods := usual.longMethods }
  | longMethodsEnabled => { s with longMethods.enabled := usual.longMethods.enabled }
  | threshold => { s with longMethods.threshold := usual.longMethods.threshold }
  | magicNumbers => { s with magicNumbers := usual.magicNumbers }
  | magicNumbersEnabled => { s with magicNumbers.enabled := usual.magicNumbers.enabled }
  | naming => { s with naming := usual.naming }
  | namingEnabled => { s with naming.enabled := usual.naming.enabled }
  | deadCode => { s with deadCode := usual.deadCode }
  | deadCodeEnabled => { s with deadCode.enabled := usual.deadCode.enabled }
  | entryPoints => { s with deadCode.options.entryPoints := usual.deadCode.options.entryPoints }
  | knownNamespaces =>
    { s with deadCode.options.knownNamespaces := usual.deadCode.options.knownNamespaces }

/-- A node is read as the default for an entry. -/
def Writes (d : Document) (v : Node) : Slot → Prop
  | version => d.form.text? v = some usual.version
  | excludedPaths => d.form.strings? v = some usual.excludedPaths
  | longMethods => d.form.longMethods? v = some usual.longMethods
  | longMethodsEnabled => d.form.bool? v = some usual.longMethods.enabled
  | threshold => d.form.natural? v = some usual.longMethods.threshold
  | magicNumbers => d.form.toggle? v = some usual.magicNumbers
  | magicNumbersEnabled => d.form.bool? v = some usual.magicNumbers.enabled
  | naming => d.form.toggle? v = some usual.naming
  | namingEnabled => d.form.bool? v = some usual.naming.enabled
  | deadCode => d.form.deadCode? v = some usual.deadCode
  | deadCodeEnabled => d.form.bool? v = some usual.deadCode.enabled
  | entryPoints => d.form.strings? v = some usual.deadCode.options.entryPoints
  | knownNamespaces => d.form.namespaces? v = some usual.deadCode.options.knownNamespaces

/-- What the record of the default settings has for an entry. -/
def usualNode (slot : Slot) : Node :=
  let found := (slot.part.path ++ [slot.name]).foldl
    (fun (j : Option Json) name => j.bind (·.get? name)) (some usual.toJson)
  .ofJson (found.getD .null)

theorem writes_usualNode (d : Document) (slot : Slot) : slot.Writes d slot.usualNode := by
  cases slot <;> rfl

/-- An entry of the whole, left out or with another value. -/
theorem lies_whole {β : Type} {x : RecordField Settings β} {value : Node → Option β}
    (hx : x.In fieldNames value (MadeOf d.form)) (h : hole.path? d = some []) :
    x.Lies d hole (read? d.form) value := by
  obtain ⟨before, after, rfl⟩ := Hole.path?_eq_nil h
  exact hx.lies (readsRecord d) before after

/-- Without an entry, or with its default, the settings have the default for it and nothing else
changes. -/
theorem overlays (slot : Slot) (h : hole.path? d = some slot.part.path) {k v : Node} {s : Settings}
    (hk : d.text? k = some slot.name) (hread : read? d.form (hole.fill [(k, v)]) = some s) :
    read? d.form (hole.fill []) = some (slot.reset s) ∧
      ∀ v', slot.Writes d v' → read? d.form (hole.fill [(k, v')]) = some (slot.reset s) := by
  have hslot : ∀ {β : Type} {x : RecordField Settings β} {value : Node → Option β},
      x.Lies d hole (read? d.form) value → x.name = slot.name → x.put x.usual s = slot.reset s →
      (∀ v', slot.Writes d v' → value v' = some x.usual) →
      read? d.form (hole.fill []) = some (slot.reset s) ∧
        ∀ v', slot.Writes d v' → read? d.form (hole.fill [(k, v')]) = some (slot.reset s) := by
    intro β x value hx hname hreset hwrites
    rw [← hname] at hk
    rw [← hreset]
    exact ⟨hx.omitted hk hread, fun v' hv' => hx.replaced hk hread (hwrites v' hv')⟩
  have hlong := LongMethodSettings.readsRecord d
  have hdead := DeadCodeSettings.readsRecord d
  cases slot with
  | version => exact hslot (lies_whole (versionField_in d.form) h) rfl rfl fun _ hv => hv
  | excludedPaths => exact hslot (lies_whole (excludedPathsField_in d.form) h) rfl rfl fun _ hv => hv
  | longMethods => exact hslot (lies_whole (longMethodsField_in d.form) h) rfl rfl fun _ hv => hv
  | magicNumbers => exact hslot (lies_whole (magicNumbersField_in d.form) h) rfl rfl fun _ hv => hv
  | naming => exact hslot (lies_whole (namingField_in d.form) h) rfl rfl fun _ hv => hv
  | deadCode => exact hslot (lies_whole (deadCodeField_in d.form) h) rfl rfl fun _ hv => hv
  | longMethodsEnabled =>
    exact hslot (Part.lies_section (longMethodsField_in d.form) hlong h
      (LongMethodSettings.enabledField_in d.form)) rfl rfl fun _ hv => hv
  | threshold =>
    exact hslot (Part.lies_section (longMethodsField_in d.form) hlong h
      (LongMethodSettings.thresholdField_in d.form)) rfl rfl fun _ hv => hv
  | magicNumbersEnabled =>
    exact hslot (Part.lies_section (magicNumbersField_in d.form) (Toggle.readsRecord d) h
      (Toggle.enabledField_in d.form)) rfl rfl fun _ hv => hv
  | namingEnabled =>
    exact hslot (Part.lies_section (namingField_in d.form) (Toggle.readsRecord d) h
      (Toggle.enabledField_in d.form)) rfl rfl fun _ hv => hv
  | deadCodeEnabled =>
    exact hslot (Part.lies_section (deadCodeField_in d.form) hdead h
      (DeadCodeSettings.enabledField_in d.form)) rfl rfl fun _ hv => hv
  | entryPoints =>
    exact hslot (Part.lies_section (deadCodeField_in d.form) hdead h
      (DeadCodeSettings.entryPointsField_in d.form)) rfl rfl fun _ hv => hv
  | knownNamespaces =>
    exact hslot (Part.lies_section (deadCodeField_in d.form) hdead h
      (DeadCodeSettings.knownNamespacesField_in d.form)) rfl rfl fun _ hv => hv

end Slot

/-- The order of the known namespaces is that of the entries, and nothing else. -/
theorem knownNamespaces_perm (h : hole.path? d = some Part.deadCode.path) {k : Node}
    {entries entries' : List Pair} {s : Settings}
    (hk : d.text? k = some Slot.knownNamespaces.name) (hperm : entries.Perm entries')
    (hkeys : (entries.map fun e => d.text? e.1).Nodup)
    (hread : read? d.form (hole.fill [(k, .mapping entries)]) = some s) :
    ∃ table, table.Perm s.deadCode.options.knownNamespaces ∧
      read? d.form (hole.fill [(k, .mapping entries')]) =
        some { s with deadCode.options.knownNamespaces := table } := by
  have hlies := Part.lies_section (deadCodeField_in d.form) (DeadCodeSettings.readsRecord d) h
    (DeadCodeSettings.knownNamespacesField_in d.form)
  obtain ⟨table, htable, hvalue⟩ := Form.namespaces?_perm hperm hkeys (hlies.given hk hread)
  exact ⟨table, htable, hlies.replaced hk hread hvalue⟩

end Settings

/-- **Settings are laid over the defaults.** In a configuration with a hole, be it in the whole or in a
section, the order of the entries that are put there does not matter, nor do entries with names that are
not known there; the entries of a table of namespaces, if no key is there twice, have no say but for the
order of the table. If an entry is left out, the settings have the default for it, and otherwise what
they had; and so they do if its default is written. -/
theorem settings_overlay (d : Document) (hole : Hole) :
    let settings := fun entries : List Pair =>
      Settings.ofDocument? { d with root := hole.fill entries }
    (∀ part : Settings.Part, hole.path? d = some part.path → ∀ entries entries',
      d.Rearranges part.fieldNames entries entries' → settings entries' = settings entries) ∧
    (hole.path? d = some Settings.Part.deadCode.path → ∀ k entries entries' s,
      d.text? k = some Settings.Slot.knownNamespaces.name → entries.Perm entries' →
      (entries.map fun e => d.text? e.1).Nodup → settings [(k, .mapping entries)] = some s →
      ∃ table, table.Perm s.deadCode.options.knownNamespaces ∧
        settings [(k, .mapping entries')] =
          some { s with deadCode.options.knownNamespaces := table }) ∧
    (∀ slot : Settings.Slot, hole.path? d = some slot.part.path → ∀ k v s,
      d.text? k = some slot.name → settings [(k, v)] = some s →
      settings [] = some (slot.reset s) ∧
        ∀ v', slot.Writes d v' → settings [(k, v')] = some (slot.reset s)) ∧
    ∀ slot : Settings.Slot, slot.Writes d slot.usualNode := by
  intro settings
  refine ⟨fun part h entries entries' hentries => part.rearranges h hentries,
    fun h k entries entries' s hk hperm hkeys hread => ?_, fun slot h k v s hk hread => ?_,
    Settings.Slot.writes_usualNode d⟩
  · exact Settings.knownNamespaces_perm h hk hperm hkeys hread
  · exact slot.overlays h hk hread

/-- A configuration with a hole in its section for long methods. -/
def tunedHole : Hole :=
  .under [(.quoted "version", .quoted "2")] (.quoted "long_methods")
    (.here [(.quoted "enabled", .plain "false")] [])
    [(.quoted "naming", .mapping [(.quoted "enabled", .plain "false")])]

/-- A configuration with a hole in its section for dead code. -/
def tableHole : Hole :=
  .under [] (.quoted "dead_code") (.here [] []) []

/-- Two namespaces, each with a name. -/
def tableEntries : List Pair :=
  [(.quoted "B", .sequence [.quoted "x"]), (.quoted "A", .sequence [.quoted "y"])]

/-- The threshold is read with a misspelled entry in front of it, and is the usual one if it is left out;
a table turned around is read as the same table. -/
theorem tunedHole_overlaid :
    let d : Document := ⟨.void, []⟩
    let tuned := fun entries => Settings.ofDocument? { d with root := tunedHole.fill entries }
    let known := fun entries => Settings.ofDocument?
      { d with root := tableHole.fill [(.quoted "known_namespaces", .mapping entries)] }
    let s : Settings := { version := "2", longMethods := ⟨false, 30⟩, naming := ⟨false⟩ }
    let given : List Pair := [(.quoted "threshold", .plain "30")]
    let misspelled : List Pair := [(.quoted "treshold", .plain "9"), (.quoted "threshold", .plain "30")]
    (tunedHole.path? d = some Settings.Part.longMethods.path ∧ tuned given = some s ∧
      d.Rearranges Settings.Part.longMethods.fieldNames given misspelled) ∧
    tuned misspelled = some s ∧
    tuned [] = some { s with longMethods.threshold := 50 } ∧
    tuned [(.quoted "threshold", Settings.Slot.threshold.usualNode)] =
      some { s with longMethods.threshold := 50 } ∧
    (tableHole.path? d = some Settings.Part.deadCode.path ∧
      (tableEntries.map fun e => d.text? e.1).Nodup) ∧
    ∃ table, table.Perm [("B", ["x"]), ("A", ["y"])] ∧ known tableEntries.reverse =
      some { deadCode := { options := { knownNamespaces := table } } } := by
  intro d tuned known s given misspelled
  obtain ⟨hparts, -, hslots, hwrites⟩ := settings_overlay d tunedHole
  obtain ⟨-, htables, -, -⟩ := settings_overlay d tableHole
  have hpath : tunedHole.path? d = some Settings.Part.longMethods.path := rfl
  have hgiven : tuned given = some s := rfl
  have hmisspelled : d.Rearranges Settings.Part.longMethods.fieldNames given misspelled := by
    refine ⟨[(.quoted "treshold", .plain "9")], List.Perm.swap _ _ _, ?_⟩
    intro e he
    rw [List.mem_singleton.mp he]
    exact ⟨"treshold", rfl, by decide⟩
  obtain ⟨homitted, hwritten⟩ := hslots .threshold hpath _ _ s rfl hgiven
  have hkeys : (tableEntries.map fun e => d.text? e.1).Nodup := by decide
  refine ⟨⟨hpath, hgiven, hmisspelled⟩, ?_, homitted, hwritten _ (hwrites .threshold),
    ⟨rfl, hkeys⟩, ?_⟩
  · exact (hparts .longMethods hpath _ _ hmisspelled).trans hgiven
  · exact htables rfl (.quoted "known_namespaces") tableEntries tableEntries.reverse _ rfl
      (List.reverse_perm _).symm hkeys rfl

end CodeSmell
