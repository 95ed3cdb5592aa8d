import CodeSmell.Settings.Reader
import Mathlib.Data.List.Perm.Basic
import Mathlib.Logic.Function.Basic

/-!
# The fields of a mapping

* `Document.Looks` : what a mapping has under some names;
* `Document.Rearranges` : entries in another order, and among them others with keys that are none of
  some names; under these names there is what there was (`Rearranges.looks_iff`);
* `Looks.split` : what changes if one entry is left out or has another value;
* `Hole` : where entries can be put in a mapping, or in one that stands in it.
-/

namespace CodeSmell.Yaml

/-- An entry of a mapping: its key and its value. -/
abbrev Pair := Node × Node

theorem mapM_eq_some_iff {α β : Type} {f : α → Option β} {xs : List α} {ys : List β} :
    xs.mapM f = some ys ↔ List.Forall₂ (fun x y => f x = some y) xs ys := by
  induction xs generalizing ys with
  | nil => simp [eq_comm]
  | cons x xs ih =>
    rw [List.mapM_cons, List.forall₂_cons_left_iff]
    simp only [Option.bind_eq_bind, Option.bind_eq_some_iff, ih, Option.pure_def, Option.some_inj]
    constructor
    · rintro ⟨y, hy, rest, hrest, rfl⟩
      exact ⟨y, rest, hy, hrest, rfl⟩
    · rintro ⟨y, rest, hy, hrest, rfl⟩
      exact ⟨y, hy, rest, hrest, rfl⟩

namespace Document

variable {d : Document} {name : String} {names : List String} {entries entries' : List Pair}
  {named named' : List (String × Node)} {get : String → Option Node}

/-! ## Values under names -/

def named? (d : Document) (e : Pair) : Option (String × Node) :=
  (d.text? e.1).map fun key => (key, e.2)

theorem namedEntries?_mapping (d : Document) (entries : List Pair) :
    d.namedEntries? (.mapping entries) = entries.mapM d.named? :=
  rfl

/-- A node has the values that `get` gives under some names, and each name at most once. -/
def Looks (d : Document) (names : List String) (n : Node) (get : String → Option Node) : Prop :=
  ∃ named, d.namedEntries? n = some named ∧ ∀ name ∈ names, field? name named = some (get name)

theorem mapM_field?_eq_some_iff {values : List (Option Node)} :
    names.mapM (field? · named) = some values ↔
      ∃ get : String → Option Node, (∀ name ∈ names, field? name named = some (get name)) ∧
        values = names.map get := by
  constructor
  · intro h
    have hvalue : ∀ name value, field? name named = some value →
        field? name named = some (field? name named).join ∧ (field? name named).join = value := by
      intro name value hfound
      rw [hfound]
      exact ⟨rfl, rfl⟩
    obtain ⟨hfound, hvalues⟩ := (List.forall₂_and_left _ _).mp ((mapM_eq_some_iff.mp h).imp hvalue)
    refine ⟨fun name => (field? name named).join, hfound, ?_⟩
    rw [← List.forall₂_map_left_iff (R := Eq), List.forall₂_eq_eq_eq] at hvalues
    exact hvalues.symm
  · rintro ⟨get, hget, rfl⟩
    exact mapM_eq_some_iff.mpr (List.forall₂_map_right_iff.mpr (List.forall₂_same.mpr hget))

theorem fields?_eq_some_iff {n : Node} {values : List (Option Node)} :
    d.form.fields? names n = some values ↔ ∃ get, d.Looks names n get ∧ values = names.map get := by
  show (d.namedEntries? n).bind (fun named => names.mapM (field? · named)) = some values ↔ _
  rw [Option.bind_eq_some_iff]
  constructor
  · rintro ⟨named, hnamed, hvalues⟩
    obtain ⟨get, hget, rfl⟩ := mapM_field?_eq_some_iff.mp hvalues
    exact ⟨get, ⟨named, hnamed, hget⟩, rfl⟩
  · rintro ⟨get, ⟨named, hnamed, hget⟩, rfl⟩
    exact ⟨named, hnamed, mapM_field?_eq_some_iff.mpr ⟨get, hget, rfl⟩⟩

/-! ## Order, and other names -/

theorem field?_perm (h : named.Perm named') (name : String) :
    field? name named = field? name named' := by
  have hperm := h.filter (·.1 == name)
  unfold field?
  generalize named.filter (·.1 == name) = found at hperm ⊢
  generalize named'.filter (·.1 == name) = found' at hperm ⊢
  match found, hperm with
  | [], hperm => rw [List.nil_perm.mp hperm]
  | [e], hperm => rw [List.singleton_perm.mp hperm]
  | first :: second :: rest, hperm =>
    match found', hperm.length_eq with
    | _ :: _ :: _, _ => rfl

theorem Looks.of_perm (h : entries.Perm entries') (hlooks : d.Looks names (.mapping entries) get) :
    d.Looks names (.mapping entries') get := by
  obtain ⟨named, hnamed, hget⟩ := hlooks
  obtain ⟨named', hnamed', hperm⟩ := List.perm_comp_forall₂ h.symm (mapM_eq_some_iff.mp hnamed)
  refine ⟨named', mapM_eq_some_iff.mpr hnamed', fun name hname => ?_⟩
  rw [field?_perm hperm, hget name hname]

/-- The second entries are the first in some order, with others between them whose keys are none of
some names. -/
def Rearranges (d : Document) (names : List String) (entries entries' : List Pair) : Prop :=
  ∃ extra, entries'.Perm (entries ++ extra) ∧
    ∀ e ∈ extra, ∃ name, d.text? e.1 = some name ∧ name ∉ names

theorem looks_append_iff {extra : List Pair}
    (hextra : ∀ e ∈ extra, ∃ name, d.text? e.1 = some name ∧ name ∉ names) :
    d.Looks names (.mapping (entries ++ extra)) get ↔ d.Looks names (.mapping entries) get := by
  obtain ⟨others, hothers, hnames⟩ : ∃ others, extra.mapM d.named? = some others ∧
      ∀ name ∈ names, others.filter (·.1 == name) = [] := by
    induction extra with
    | nil => exact ⟨[], rfl, fun name _ => rfl⟩
    | cons e extra ih =>
      obtain ⟨⟨key, hkey, hnot⟩, hextra⟩ := List.forall_mem_cons.mp hextra
      obtain ⟨others, hothers, hnames⟩ := ih hextra
      refine ⟨(key, e.2) :: others, ?_, fun name hname => ?_⟩
      · rw [List.mapM_cons, named?, hkey, hothers]
        rfl
      · have hne : key ≠ name := by
          rintro rfl
          exact hnot hname
        rw [List.filter_cons_of_neg (by simpa using hne), hnames name hname]
  have hfield : ∀ named, ∀ name ∈ names, field? name (named ++ others) = field? name named := by
    intro named name hname
    rw [field?, List.filter_append, hnames name hname, List.append_nil]
    rfl
  unfold Looks
  rw [namedEntries?_mapping, namedEntries?_mapping, List.mapM_append, hothers]
  cases entries.mapM d.named? with
  | none => exact Iff.rfl
  | some named =>
    constructor
    · rintro ⟨_, heq, hget⟩
      cases heq
      exact ⟨named, rfl, fun name hname => (hfield named name hname).symm.trans (hget name hname)⟩
    · rintro ⟨_, heq, hget⟩
      cases heq
      exact ⟨named ++ others, rfl, fun name hname => (hfield named name hname).trans (hget name hname)⟩

theorem Rearranges.looks_iff (h : d.Rearranges names entries entries') :
    d.Looks names (.mapping entries') get ↔ d.Looks names (.mapping entries) get := by
  obtain ⟨extra, hperm, hextra⟩ := h
  exact ⟨fun hlooks => (looks_append_iff hextra).mp (hlooks.of_perm hperm),
    fun hlooks => ((looks_append_iff hextra).mpr hlooks).of_perm hperm.symm⟩

theorem Rearranges.between (h : d.Rearranges names entries entries') (before after : List Pair) :
    d.Rearranges names (before ++ entries ++ after) (before ++ entries' ++ after) := by
  obtain ⟨extra, hperm, hextra⟩ := h
  refine ⟨extra, ?_, hextra⟩
  have hmove : (extra ++ after).Perm (after ++ extra) := List.perm_append_comm
  have hnew : (before ++ entries' ++ after).Perm (before ++ entries ++ (extra ++ after)) := by
    simpa only [List.append_assoc] using (hperm.append_left before).append_right after
  simpa only [List.append_assoc] using hnew.trans (hmove.append_left (before ++ entries))

/-! ## One entry -/

theorem mapM_named?_cons {k v : Node} {after : List Pair} (hk : d.text? k = some name) :
    ((k, v) :: after).mapM d.named? = (after.mapM d.named?).map ((name, v) :: ·) := by
  rw [List.mapM_cons, named?, hk]
  cases after.mapM d.named? <;> rfl

/-- An entry under one of some names is the only one of its name. Without it nothing stands there, with
another value that value, and under the other names there is what there was. -/
theorem Looks.split {before after : List Pair} {k v : Node} (hk : d.text? k = some name)
    (hname : name ∈ names) (h : d.Looks names (.mapping (before ++ (k, v) :: after)) get) :
    get name = some v ∧
      d.Looks names (.mapping (before ++ after)) (Function.update get name none) ∧
      ∀ v', d.Looks names (.mapping (before ++ (k, v') :: after))
        (Function.update get name (some v')) := by
  obtain ⟨named, hnamed, hget⟩ := h
  have hsplit : ∀ w, (before ++ (k, w) :: after).mapM d.named? =
      (before.mapM d.named?).bind fun front =>
        (after.mapM d.named?).map fun behind => front ++ (name, w) :: behind := by
    intro w
    rw [List.mapM_append, mapM_named?_cons hk]
    cases before.mapM d.named? <;> cases after.mapM d.named? <;> rfl
  rw [namedEntries?_mapping, hsplit] at hnamed
  obtain ⟨front, hfront, hnamed⟩ := Option.bind_eq_some_iff.mp hnamed
  obtain ⟨behind, hbehind, rfl⟩ := Option.map_eq_some_iff.mp hnamed
  -- what stands under the name, and under the others
  have hown : ∀ w, (front ++ (name, w) :: behind).filter (·.1 == name) =
      front.filter (·.1 == name) ++ (name, w) :: behind.filter (·.1 == name) := by
    intro w
    rw [List.filter_append, List.filter_cons_of_pos (by simp)]
  have hother : ∀ other w, other ≠ name →
      field? other (front ++ (name, w) :: behind) = field? other (front ++ behind) := by
    intro other w hne
    rw [field?, List.filter_append, List.filter_cons_of_neg (by simpa using hne.symm),
      ← List.filter_append]
    rfl
  obtain ⟨hvalue, hempty⟩ : get name = some v ∧ front.filter (·.1 == name) = [] ∧
      behind.filter (·.1 == name) = [] := by
    have hfound := hget name hname
    rw [field?, hown] at hfound
    generalize front.filter (·.1 == name) = front' at hfound ⊢
    generalize behind.filter (·.1 == name) = behind' at hfound ⊢
    match front', behind', hfound with
    | [], [], hfound => exact ⟨(Option.some_inj.mp hfound).symm, rfl, rfl⟩
    | [], _ :: _, hfound => cases hfound
    | [_], _, hfound => cases hfound
    | _ :: _ :: _, _, hfound => cases hfound
  refine ⟨hvalue, ⟨front ++ behind, ?_, ?_⟩, fun v' => ⟨front ++ (name, v') :: behind, ?_, ?_⟩⟩
  · rw [namedEntries?_mapping, List.mapM_append, hfront, hbehind]
    rfl
  · intro other hmem
    by_cases hne : other = name
    · subst hne
      rw [Function.update_self, field?, List.filter_append, hempty.1, hempty.2]
      rfl
    · rw [Function.update_of_ne hne, ← hother other v hne]
      exact hget other hmem
  · rw [namedEntries?_mapping, hsplit, hfront, hbehind]
    rfl
  · intro other hmem
    by_cases hne : other = name
    · subst hne
      rw [Function.update_self, field?, hown, hempty.1, hempty.2]
      rfl
    · rw [Function.update_of_ne hne, hother other v' hne, ← hother other v hne]
      exact hget other hmem

end Document

/-! ## Holes -/

/-- A mapping with a hole for entries: in it, or in the value of one of its entries. -/
inductive Hole where
  | here (before after : List Pair)
  | under (before : List Pair) (key : Node) (inner : Hole) (after : List Pair)

namespace Hole

/-- The mapping with some entries in the hole. -/
def fill : Hole → List Pair → Node
  | here before after, entries => .mapping (before ++ entries ++ after)
  | under before key inner after, entries =>
    .mapping (before ++ (key, inner.fill entries) :: after)

/-- The keys on the way to a hole, if they are texts. -/
def path? (d : Document) : Hole → Option (List String)
  | here _ _ => some []
  | under _ key inner _ =>
    (d.text? key).bind fun name => (inner.path? d).map fun path => name :: path

theorem fill_here_singleton (before after : List Pair) (k v : Node) :
    (here before after).fill [(k, v)] = .mapping (before ++ (k, v) :: after) := by
  rw [fill, List.append_assoc, List.singleton_append]

theorem fill_here_nil (before after : List Pair) :
    (here before after).fill [] = .mapping (before ++ after) := by
  rw [fill, List.append_nil]

theorem fill_under (before : List Pair) (key : Node) (inner : Hole) (after entries : List Pair) :
    (under before key inner after).fill entries =
      (here before after).fill [(key, inner.fill entries)] := by
  rw [fill_here_singleton, fill]

variable {d : Document} {hole : Hole}

theorem path?_eq_nil (h : hole.path? d = some []) : ∃ before after, hole = here before after := by
  cases hole with
  | here before after => exact ⟨before, after, rfl⟩
  | under before key inner after =>
    obtain ⟨name, -, hpath⟩ := Option.bind_eq_some_iff.mp h
    obtain ⟨path, -, hcons⟩ := Option.map_eq_some_iff.mp hpath
    cases hcons

theorem path?_eq_cons {name : String} {path : List String}
    (h : hole.path? d = some (name :: path)) : ∃ before key inner after,
      hole = under before key inner after ∧ d.text? key = some name ∧ inner.path? d = some path := by
  cases hole with
  | here before after => cases h
  | under before key inner after =>
    obtain ⟨name', hname, hpath⟩ := Option.bind_eq_some_iff.mp h
    obtain ⟨path', hpath, hcons⟩ := Option.map_eq_some_iff.mp hpath
    cases hcons
    exact ⟨before, key, inner, after, rfl, hname, hpath⟩

end Hole

end CodeSmell.Yaml
