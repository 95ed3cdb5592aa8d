import CodeSmell.Proofs.Yaml.Fields

/-!
# Records that are read from mappings

* `RecordField` : a field of a record, with its name and its default;
* `ReadsRecord`, `RecordField.In` : a record is read from a mapping field by field;
* `RecordField.Lies` : what becomes of the record if an entry for the field is left out or has another
  value; so it is for the fields of the whole, and for those of a section (`In.lies`, `Lies.under`);
* `MadeOf`, for settings and their sections : what they are made of, field by field, and that they are
  read so.
-/

namespace CodeSmell

open Yaml (Document Hole Node Pair)
open Form (value?)

/-! ## Records -/

/-- A field of a record: its name, its default, and how it is read off and set. -/
structure RecordField (σ β : Type) where
  name : String
  usual : β
  get : σ → β
  put : β → σ → σ

variable {σ τ β : Type} {d : Document} {names : List String}
  {made : (String → Option Node) → σ → Prop} {read : Node → Option σ} {value : Node → Option β}

/-- A reader gives a record that is made of what a mapping has under some names. -/
def ReadsRecord (d : Document) (names : List String) (made : (String → Option Node) → σ → Prop)
    (read : Node → Option σ) : Prop :=
  ∀ n s, read n = some s ↔ ∃ get, d.Looks names n get ∧ made get s

/-- So it is if all that the reader asks for is the fields with these names. -/
theorem readsRecord_of_fields?
    (hsome : ∀ {n get}, d.form.fields? names n = some (names.map get) →
      ∀ s, read n = some s ↔ made get s)
    (hnone : ∀ {n}, d.form.fields? names n = none → read n = none) :
    ReadsRecord d names made read := by
  intro n s
  constructor
  · intro h
    cases hfields : d.form.fields? names n with
    | none =>
      rw [hnone hfields] at h
      cases h
    | some values =>
      obtain ⟨get, hlooks, rfl⟩ := Document.fields?_eq_some_iff.mp hfields
      exact ⟨get, hlooks, (hsome hfields s).mp h⟩
  · rintro ⟨get, hlooks, hmade⟩
    exact (hsome (Document.fields?_eq_some_iff.mpr ⟨get, hlooks, rfl⟩) s).mpr hmade

theorem ReadsRecord.rearranges (h : ReadsRecord d names made read) {entries entries' : List Pair}
    (hentries : d.Rearranges names entries entries') :
    read (.mapping entries') = read (.mapping entries) := by
  refine Option.ext fun s => ?_
  rw [h, h]
  exact exists_congr fun get => and_congr_left' hentries.looks_iff

namespace RecordField

/-- A record has for a field what is read from under its name, or the default. -/
structure In (x : RecordField σ β) (names : List String) (value : Node → Option β)
    (made : (String → Option Node) → σ → Prop) : Prop where
  mem : x.name ∈ names
  value_eq : ∀ {get s}, made get s → value? value x.usual (get x.name) = some (x.get s)
  put : ∀ {get s y b}, made get s → value? value x.usual y = some b →
    made (Function.update get x.name y) (x.put b s)
  put_get : ∀ s, x.put (x.get s) s = s

/-- What becomes of a record that has an entry for a field. -/
structure Lies (x : RecordField σ β) (d : Document) (hole : Hole) (read : Node → Option σ)
    (value : Node → Option β) : Prop where
  given : ∀ {k v s}, d.text? k = some x.name → read (hole.fill [(k, v)]) = some s →
    value v = some (x.get s)
  omitted : ∀ {k v s}, d.text? k = some x.name → read (hole.fill [(k, v)]) = some s →
    read (hole.fill []) = some (x.put x.usual s)
  replaced : ∀ {k v s v' b}, d.text? k = some x.name → read (hole.fill [(k, v)]) = some s →
    value v' = some b → read (hole.fill [(k, v')]) = some (x.put b s)

variable {x : RecordField σ β} {before after : List Pair}

theorem In.lies (hx : x.In names value made) (hread : ReadsRecord d names made read)
    (before after : List Pair) : x.Lies d (.here before after) read value where
  given {k v s} hk h := by
    rw [Hole.fill_here_singleton] at h
    obtain ⟨get, hlooks, hmade⟩ := (hread _ s).mp h
    have hvalue := hx.value_eq hmade
    rwa [(hlooks.split hk hx.mem).1] at hvalue
  omitted {k v s} hk h := by
    rw [Hole.fill_here_singleton] at h
    obtain ⟨get, hlooks, hmade⟩ := (hread _ s).mp h
    rw [Hole.fill_here_nil]
    exact (hread _ _).mpr ⟨_, (hlooks.split hk hx.mem).2.1, hx.put hmade rfl⟩
  replaced {k v s v' b} hk h hvalue := by
    rw [Hole.fill_here_singleton] at h ⊢
    obtain ⟨get, hlooks, hmade⟩ := (hread _ s).mp h
    exact (hread _ _).mpr ⟨_, (hlooks.split hk hx.mem).2.2 v', hx.put hmade hvalue⟩

/-- A field of a section, as a field of the whole. -/
def inside (x : RecordField τ β) (X : RecordField σ τ) : RecordField σ β where
  name := x.name
  usual := x.usual
  get s := x.get (X.get s)
  put b s := X.put (x.put b (X.get s)) s

variable {X : RecordField σ τ} {part : Node → Option τ} {key : Node} {inner : Hole}

/-- What becomes of a section becomes of the whole. -/
theorem Lies.under {x : RecordField τ β} (hX : X.Lies d (.here before after) read part)
    (hx : x.Lies d inner part value) (hkey : d.text? key = some X.name) :
    (x.inside X).Lies d (.under before key inner after) read value where
  given {k v s} hk h := by
    rw [Hole.fill_under] at h
    exact hx.given hk (hX.given hkey h)
  omitted {k v s} hk h := by
    rw [Hole.fill_under] at h ⊢
    exact hX.replaced hkey h (hx.omitted hk (hX.given hkey h))
  replaced {k v s v' b} hk h hvalue := by
    rw [Hole.fill_under] at h ⊢
    exact hX.replaced hkey h (hx.replaced hk (hX.given hkey h) hvalue)

/-- Sections that are read as the same make the same whole. -/
theorem Lies.congr (hX : X.Lies d (.here before after) read part)
    (hput : ∀ s, X.put (X.get s) s = s) (hkey : d.text? key = some X.name) {n n' : Node}
    (hpart : part n' = part n) :
    read ((Hole.here before after).fill [(key, n')]) =
      read ((Hole.here before after).fill [(key, n)]) := by
  have hsame : ∀ {n n' s}, part n' = part n →
      read ((Hole.here before after).fill [(key, n)]) = some s →
      read ((Hole.here before after).fill [(key, n')]) = some s := by
    intro n n' s hpart h
    rw [hX.replaced hkey h (hpart.trans (hX.given hkey h)), hput]
  exact Option.ext fun s => ⟨hsame hpart.symm, hsame hpart⟩

end RecordField

/-! ## The records of a configuration -/

namespace Toggle

def fieldNames : List String :=
  ["enabled"]

/-- A switch is made of what stands under the name of its field. -/
@[mk_iff]
structure MadeOf (f : Form Node) (get : String → Option Node) (t : Toggle) : Prop where
  enabled : value? f.bool? true (get "enabled") = some t.enabled

theorem readsRecord (d : Document) : ReadsRecord d fieldNames (MadeOf d.form) d.form.toggle? := by
  refine readsRecord_of_fields? (fun h t => ?_) (fun h => ?_)
  · rw [Form.toggle?, ← fieldNames, h, madeOf_iff]
    cases t
    simp [fieldNames, Option.bind_eq_some_iff]
  · rw [Form.toggle?, ← fieldNames, h]

def enabledField : RecordField Toggle Bool where
  name := "enabled"
  usual := true
  get := (·.enabled)
  put b _ := ⟨b⟩

theorem enabledField_in (f : Form Node) : enabledField.In fieldNames f.bool? (MadeOf f) where
  mem := by decide
  value_eq h := h.enabled
  put _ hy := ⟨hy⟩
  put_get _ := rfl

end Toggle

namespace LongMethodSettings

def fieldNames : List String :=
  ["enabled", "threshold"]

@[mk_iff]
structure MadeOf (f : Form Node) (get : String → Option Node) (s : LongMethodSettings) : Prop where
  enabled : value? f.bool? true (get "enabled") = some s.enabled
  threshold : value? f.natural? defaultThreshold (get "threshold") = some s.threshold

theorem readsRecord (d : Document) :
    ReadsRecord d fieldNames (MadeOf d.form) d.form.longMethods? := by
  refine readsRecord_of_fields? (fun h s => ?_) (fun h => ?_)
  · rw [Form.longMethods?, ← fieldNames, h, madeOf_iff]
    cases s
    simp [fieldNames, Option.bind_eq_some_iff]
  · rw [Form.longMethods?, ← fieldNames, h]

def enabledField : RecordField LongMethodSettings Bool where
  name := "enabled"
  usual := true
  get := (·.enabled)
  put b s := { s with enabled := b }

def thresholdField : RecordField LongMethodSettings Nat where
  name := "threshold"
  usual := defaultThreshold
  get := (·.threshold)
  put b s := { s with threshold := b }

theorem enabledField_in (f : Form Node) : enabledField.In fieldNames f.bool? (MadeOf f) where
  mem := by decide
  value_eq h := h.enabled
  put h hy := { h with enabled := hy }
  put_get _ := rfl

theorem thresholdField_in (f : Form Node) : thresholdField.In fieldNames f.natural? (MadeOf f) where
  mem := by decide
  value_eq h := h.threshold
  put h hy := { h with threshold := hy }
  put_get _ := rfl

end LongMethodSettings

namespace DeadCodeSettings

def fieldNames : List String :=
  ["enabled", "entry_points", "known_namespaces"]

@[mk_iff]
structure MadeOf (f : Form Node) (get : String → Option Node) (s : DeadCodeSettings) : Prop where
  enabled : value? f.bool? true (get "enabled") = some s.enabled
  entryPoints : value? f.strings? ({} : DeadCodeOptions).entryPoints (get "entry_points") =
    some s.options.entryPoints
  knownNamespaces : value? f.namespaces? ({} : DeadCodeOptions).knownNamespaces
    (get "known_namespaces") = some s.options.knownNamespaces

theorem readsRecord (d : Document) :
    ReadsRecord d fieldNames (MadeOf d.form) d.form.deadCode? := by
  refine readsRecord_of_fields? (fun h s => ?_) (fun h => ?_)
  · rw [Form.deadCode?, ← fieldNames, h, madeOf_iff]
    obtain ⟨enabled, entryPoints, known⟩ := s
    cases enabled <;> simp [fieldNames, Option.bind_eq_some_iff]
  · rw [Form.deadCode?, ← fieldNames, h]

def enabledField : RecordField DeadCodeSettings Bool where
  name := "enabled"
  usual := true
  get := (·.enabled)
  put b s := { s with enabled := b }

def entryPointsField : RecordField DeadCodeSettings (List String) where
  name := "entry_points"
  usual := ({} : DeadCodeOptions).entryPoints
  get := (·.options.entryPoints)
  put b s := { s with options.entryPoints := b }

def knownNamespacesField : RecordField DeadCodeSettings (List (String × List String)) where
  name := "known_namespaces"
  usual := ({} : DeadCodeOptions).knownNamespaces
  get := (·.options.knownNamespaces)
  put b s := { s with options.knownNamespaces := b }

theorem enabledField_in (f : Form Node) : enabledField.In fieldNames f.bool? (MadeOf f) where
  mem := by decide
  value_eq h := h.enabled
  put h hy := { h with enabled := hy }
  put_get _ := rfl

theorem entryPointsField_in (f : Form Node) :
    entryPointsField.In fieldNames f.strings? (MadeOf f) where
  mem := by decide
  value_eq h := h.entryPoints
  put h hy := { h with entryPoints := hy }
  put_get _ := rfl

theorem knownNamespacesField_in (f : Form Node) :
    knownNamespacesField.In fieldNames f.namespaces? (MadeOf f) where
  mem := by decide
  value_eq h := h.knownNamespaces
  put h hy := { h with knownNamespaces := hy }
  put_get _ := rfl

end DeadCodeSettings

namespace Settings

@[mk_iff]
structure MadeOf (f : Form Node) (get : String → Option Node) (s : Settings) : Prop where
  version : value? f.text? ({} : Settings).version (get "version") = some s.version
  excludedPaths : value? f.strings? ({} : Settings).excludedPaths (get "excluded_paths") =
    some s.excludedPaths
  longMethods : value? f.longMethods? ({} : Settings).longMethods (get "long_methods") =
    some s.longMethods
  magicNumbers : value? f.toggle? ({} : Settings).magicNumbers (get "magic_numbers") =
    some s.magicNumbers
  naming : value? f.toggle? ({} : Settings).naming (get "naming") = some s.naming
  deadCode : value? f.deadCode? ({} : Settings).deadCode (get "dead_code") = some s.deadCode

theorem readsRecord (d : Document) : ReadsRecord d fieldNames (MadeOf d.form) (read? d.form) := by
  refine readsRecord_of_fields? (fun h s => ?_) (fun h => ?_)
  · rw [read?, h, madeOf_iff]
    cases s
    simp [fieldNames, Option.bind_eq_some_iff]
  · rw [read?, h]

def versionField : RecordField Settings String where
  name := "version"
  usual := ({} : Settings).version
  get := (·.version)
  put b s := { s with version := b }

def excludedPathsField : RecordField Settings (List String) where
  name := "excluded_paths"
  usual := ({} : Settings).excludedPaths
  get := (·.excludedPaths)
  put b s := { s with excludedPaths := b }

def longMethodsField : RecordField Settings LongMethodSettings where
  name := "long_methods"
  usual := ({} : Settings).longMethods
  get := (·.longMethods)
  put b s := { s with longMethods := b }

def magicNumbersField : RecordField Settings Toggle where
  name := "magic_numbers"
  usual := ({} : Settings).magicNumbers
  get := (·.magicNumbers)
  put b s := { s with magicNumbers := b }

def namingField : RecordField Settings Toggle where
  name := "naming"
  usual := ({} : Settings).naming
  get := (·.naming)
  put b s := { s with naming := b }

def deadCodeField : RecordField Settings DeadCodeSettings where
  name := "dead_code"
  usual := ({} : Settings).deadCode
  get := (·.deadCode)
  put b s := { s with deadCode := b }

section In

variable (f : Form Node)

theorem versionField_in : versionField.In fieldNames f.text? (MadeOf f) where
  mem := by decide
  value_eq h := h.version
  put h hy := { h with version := hy }
  put_get _ := rfl

theorem excludedPathsField_in : excludedPathsField.In fieldNames f.strings? (MadeOf f) where
  mem := by decide
  value_eq h := h.excludedPaths
  put h hy := { h with excludedPaths := hy }
  put_get _ := rfl

theorem longMethodsField_in : longMethodsField.In fieldNames f.longMethods? (MadeOf f) where
  mem := by decide
  value_eq h := h.longMethods
  put h hy := { h with longMethods := hy }
  put_get _ := rfl

theorem magicNumbersField_in : magicNumbersField.In fieldNames f.toggle? (MadeOf f) where
  mem := by decide
  value_eq h := h.magicNumbers
  put h hy := { h with magicNumbers := hy }
  put_get _ := rfl

theorem namingField_in : namingField.In fieldNames f.toggle? (MadeOf f) where
  mem := by decide
  value_eq h := h.naming
  put h hy := { h with naming := hy }
  put_get _ := rfl

theorem deadCodeField_in : deadCodeField.In fieldNames f.deadCode? (MadeOf f) where
  mem := by decide
  value_eq h := h.deadCode
  put h hy := { h with deadCode := hy }
  put_get _ := rfl

end In

end Settings

end CodeSmell
