import CodeSmell.Proofs.Project.Scopes

/-!
# Directives that are reported

* `KnownUnder` : a name is known to come with a path, because the project declares it there, because
  the path is well known for it or because the options say so;
* `mem_providedBy_iff`, `providedBy_eq_nil_iff` : what a directive is checked against are these names,
  and it is checked against nothing if there are none and the options do not list its path;
* `UsingDirective.MentionedFor`, `UsingDirective.QueriedFor` : what is mentioned where a directive
  applies, in its file or in all of them;
* `IsUnneeded`, `unneeded_imports_reported` : which directives without an alias are reported;
* `listed_path_without_names_reported` : a path that the options list with no names counts as known,
  so that a directive for it is reported although no name is known to come with it.
-/

namespace CodeSmell

open Syntax

/-- A name is known to be made available by a directive for a path. -/
inductive KnownUnder (p : Project) (o : DeadCodeOptions) (path name : String) : Prop
  | declared (h : p.Declares path name)
  | wellKnown (names : List String) (listed : Project.builtin? path = some names)
      (h : name ∈ names)
  | configured (names : List String) (listed : (path, names) ∈ o.knownNamespaces)
      (h : name ∈ names)

/-! ## What a directive is checked against -/

namespace DeadCodeOptions

variable {o : DeadCodeOptions} {path : String}

/-- A path is unknown to the options if they do not list it, with names or without. -/
theorem known?_eq_none_iff :
    o.known? path = none ↔ ∀ names, (path, names) ∉ o.knownNamespaces := by
  unfold known?
  split
  · next hentries =>
    refine iff_of_true rfl fun names hlisted => ?_
    exact List.filter_eq_nil_iff.mp hentries _ hlisted (beq_self_eq_true path)
  · next hentries =>
    refine iff_of_false nofun fun h => hentries (List.filter_eq_nil_iff.mpr ?_)
    rintro ⟨other, names⟩ hlisted heq
    obtain rfl := eq_of_beq heq
    exact h names hlisted

/-- The lists for one path count together. -/
theorem mem_known?_iff {name : String} :
    (∃ names, o.known? path = some names ∧ name ∈ names) ↔
      ∃ names, (path, names) ∈ o.knownNamespaces ∧ name ∈ names := by
  have hentries : ∀ entry, entry ∈ o.knownNamespaces.filter (·.1 == path) ↔
      (path, entry.2) ∈ o.knownNamespaces ∧ entry.1 = path := by
    rintro ⟨other, names⟩
    rw [List.mem_filter, beq_iff_eq]
    constructor
    · rintro ⟨hlisted, rfl⟩
      exact ⟨hlisted, rfl⟩
    · rintro ⟨hlisted, rfl⟩
      exact ⟨hlisted, rfl⟩
  unfold known?
  split
  · next hnone =>
    rw [hnone] at hentries
    refine iff_of_false nofun ?_
    rintro ⟨names, hlisted, -⟩
    exact absurd ((hentries (path, names)).mpr ⟨hlisted, rfl⟩) List.not_mem_nil
  · simp only [Option.some_inj, exists_eq_left', List.mem_flatMap, hentries]
    constructor
    · rintro ⟨⟨_, names⟩, ⟨hlisted, -⟩, hname⟩
      exact ⟨names, hlisted, hname⟩
    · rintro ⟨names, hlisted, hname⟩
      exact ⟨(path, names), ⟨hlisted, rfl⟩, hname⟩

end DeadCodeOptions

/-- A well-known path comes with names. -/
theorem Project.builtin?_ne_some_nil (path : String) : Project.builtin? path ≠ some [] := by
  intro hlisted
  have hall : ∀ entry ∈ Project.builtinNames, entry.2 ≠ [] := by decide
  obtain ⟨before, behind, hsplit, -⟩ := List.lookup_eq_some_iff.mp hlisted
  exact hall (path, []) (by rw [hsplit]; simp) rfl

section Provided

variable {p : Project} {o : DeadCodeOptions} {path : String}

/-- A directive is checked against the names that are known to come with its path. -/
theorem mem_providedBy_iff {name : String} :
    (∃ names ∈ providedBy p o path, name ∈ names) ↔ KnownUnder p o path name := by
  simp only [providedBy, List.mem_append, Option.mem_toList, or_and_right, exists_or]
  rw [Project.mem_declaredIn?_iff, DeadCodeOptions.mem_known?_iff]
  constructor
  · rintro ((h | ⟨names, listed, h⟩) | ⟨names, listed, h⟩)
    · exact .declared h
    · exact .wellKnown names listed h
    · exact .configured names listed h
  · intro h
    cases h with
    | declared h => exact .inl (.inl h)
    | wellKnown names listed h => exact .inl (.inr ⟨names, listed, h⟩)
    | configured names listed h => exact .inr ⟨names, listed, h⟩

/-- There is nothing to check a directive against if no name is known to come with its path and
the options do not list the path. -/
theorem providedBy_eq_nil_iff :
    providedBy p o path = [] ↔
      (∀ name, ¬ KnownUnder p o path name) ∧ ∀ names, (path, names) ∉ o.knownNamespaces := by
  rw [← DeadCodeOptions.known?_eq_none_iff]
  constructor
  · intro hnil
    refine ⟨fun name hname => ?_, ?_⟩
    · obtain ⟨names, hmem, -⟩ := mem_providedBy_iff.mpr hname
      rw [hnil] at hmem
      exact absurd hmem List.not_mem_nil
    · unfold providedBy at hnil
      exact Option.toList_eq_nil_iff.mp (List.append_eq_nil_iff.mp hnil).2
  · rintro ⟨hnone, hconfigured⟩
    have hdeclared : p.declaredIn? path = none :=
      Project.declaredIn?_eq_none_iff.mpr fun name hname => hnone name (.declared hname)
    have hbuiltin : Project.builtin? path = none := by
      cases hlisted : Project.builtin? path with
      | none => rfl
      | some names =>
        -- the table has at least one name for each of its paths
        cases names with
        | nil => exact absurd hlisted (Project.builtin?_ne_some_nil path)
        | cons name rest =>
          exact absurd (.wellKnown _ hlisted List.mem_cons_self) (hnone name)
    rw [providedBy, hdeclared, hbuiltin, hconfigured]
    rfl

end Provided

/-! ## The verdict -/

namespace UsingDirective

/-- A name is mentioned where a directive of a file applies. -/
def MentionedFor (u : UsingDirective) (p : Project) (f : Facts) (name : String) : Prop :=
  if u.isGlobal then ∃ g ∈ p.files, name ∈ g.referenced else name ∈ f.referenced

/-- There is a query expression where a directive of a file applies. -/
def QueriedFor (u : UsingDirective) (p : Project) (f : Facts) : Prop :=
  if u.isGlobal then ∃ g ∈ p.files, g.usesQuery = true else f.usesQuery = true

variable {u : UsingDirective} {p : Project} {f : Facts}

theorem mem_usageOf_names_iff {name : String} :
    name ∈ (usageOf p f u).names ↔ u.MentionedFor p f name := by
  unfold usageOf MentionedFor
  split
  · exact List.mem_flatMap
  · rfl

theorem usageOf_query_iff : (usageOf p f u).query = true ↔ u.QueriedFor p f := by
  unfold usageOf QueriedFor
  split
  · exact List.any_eq_true
  · rfl

end UsingDirective

/-- A directive of a file is unneeded: its path has a limited number of names, it is not there for
query expressions, its path is known, and no name that is known to come with it is mentioned where
the directive applies. A path is known if a name is known to come with it, and also if the options
list it with no names at all. -/
structure IsUnneeded (p : Project) (o : DeadCodeOptions) (f : Facts) (u : UsingDirective) :
    Prop where
  not_open : Project.isOpen u.path = false
  not_for_queries : ¬ (u.path = queryNamespace ∧ u.QueriedFor p f)
  known : (∃ name, KnownUnder p o u.path name) ∨ ∃ names, (u.path, names) ∈ o.knownNamespaces
  not_mentioned : ∀ name, KnownUnder p o u.path name → ¬ u.MentionedFor p f name

theorem importIsUsed_eq_false_iff {p : Project} {o : DeadCodeOptions} {f : Facts}
    {u : UsingDirective} (halias : u.aliasName = none) :
    importIsUsed p o (usageOf p f u) u = false ↔ IsUnneeded p o f u := by
  have hqueries : ((usageOf p f u).query && u.path == queryNamespace) = true ↔
      u.path = queryNamespace ∧ u.QueriedFor p f := by
    rw [Bool.and_eq_true, beq_iff_eq, UsingDirective.usageOf_query_iff, and_comm]
  have hknown : (providedBy p o u.path).isEmpty = false ↔
      (∃ name, KnownUnder p o u.path name) ∨ ∃ names, (u.path, names) ∈ o.knownNamespaces := by
    rw [← Bool.not_eq_true, List.isEmpty_iff, providedBy_eq_nil_iff]
    simp only [not_and_or, not_forall, not_not]
  have hmentioned :
      ((providedBy p o u.path).any fun names => names.any (usageOf p f u).names.contains) = false ↔
        ∀ name, KnownUnder p o u.path name → ¬ u.MentionedFor p f name := by
    simp only [← mem_providedBy_iff, ← UsingDirective.mem_usageOf_names_iff, List.any_eq_false,
      List.contains_iff_mem, List.any_eq_true, not_exists, not_and, forall_exists_index, and_imp]
    exact ⟨fun h name names hnames => h names hnames name,
      fun h names hnames name => h name names hnames⟩
  unfold importIsUsed
  rw [halias]
  dsimp only
  split
  · next hspared =>
    refine iff_of_false nofun fun h => ?_
    rcases Bool.or_eq_true_iff.mp hspared with hopen | hquery
    · rw [h.not_open] at hopen
      cases hopen
    · exact h.not_for_queries (hqueries.mp hquery)
  · next hspared =>
    obtain ⟨hopen, hquery⟩ := not_or.mp fun h => hspared (Bool.or_eq_true_iff.mpr h)
    rw [Bool.or_eq_false_iff, hknown, hmentioned]
    exact ⟨fun ⟨hk, hm⟩ => ⟨Bool.eq_false_iff.mpr hopen, fun h => hquery (hqueries.mpr h), hk, hm⟩,
      fun h => ⟨h.known, h.not_mentioned⟩⟩

/-- **Which directives are reported.** Order aside, the findings about directives are one for each
condemned directive of each file; those without an alias are condemned that are unneeded. -/
theorem unneeded_imports_reported (p : Project) (o : DeadCodeOptions) :
    ((p.deadCode o).filter (·.kind == .unusedImport)).Perm
        (p.files.flatMap fun f => (f.condemnedImports p o).map (·.finding f.path)) ∧
      ∀ f ∈ p.files, ∀ u ∈ f.usings, u.aliasName = none →
        (u ∈ f.condemnedImports p o ↔ IsUnneeded p o f u) := by
  constructor
  · rw [Project.deadCode, List.filter_flatMap]
    exact List.Perm.flatMap_left _ fun f _ => f.deadCode_imports p o
  · intro f _ u hu halias
    rw [Facts.condemnedImports, List.mem_filter, Bool.not_eq_true', importIsUsed_eq_false_iff halias]
    exact and_iff_right hu

/-! ## A path with no names -/

/-- A file with nothing but a directive for `Acme`. -/
def Syntax.Node.importingAcme : Node :=
  phrase "compilation_unit" none
    [phrase "using_directive" none [token 0 "using", word none 6 "Acme", token 10 ";"]]

def acmeProject : Project :=
  ⟨[Facts.ofTree "A.cs" ⟨Node.importingAcme, false⟩]⟩

def acmeDirective : UsingDirective :=
  ⟨"Acme", none, false, false, ⟨0, 1⟩⟩

theorem acmeProject_declares_nothing (scope name : String) : ¬ acmeProject.Declares scope name := by
  rw [← Project.mem_scopeEntries_iff]
  have hnone : acmeProject.scopeEntries = [] := by decide
  rw [hnone]
  exact List.not_mem_nil

/-- If the options list `Acme` with a name, the directive is reported since nothing mentions it. -/
theorem acmeDirective_reported :
    acmeDirective ∈ (Facts.ofTree "A.cs" ⟨Node.importingAcme, false⟩).condemnedImports acmeProject
      { knownNamespaces := [("Acme", ["Gauge"])] } := by
  obtain ⟨-, hreported⟩ :=
    unneeded_imports_reported acmeProject { knownNamespaces := [("Acme", ["Gauge"])] }
  refine (hreported _ (List.mem_singleton_self _) acmeDirective (by decide) rfl).mpr
    ⟨by decide, fun h => absurd h.1 (by decide),
      .inl ⟨"Gauge", .configured _ (List.mem_singleton_self _) (by decide)⟩, ?_⟩
  intro name _ hmentioned
  have hnone : (Facts.ofTree "A.cs" ⟨Node.importingAcme, false⟩).referenced = [] := by decide
  change name ∈ (Facts.ofTree "A.cs" ⟨Node.importingAcme, false⟩).referenced at hmentioned
  rw [hnone] at hmentioned
  exact absurd hmentioned List.not_mem_nil

/-- A directive for a path that the options list without any name is reported, although no name is
known to come with the path. -/
theorem listed_path_without_names_reported :
    acmeProject.deadCode { knownNamespaces := [("Acme", [])] } =
        [⟨.unusedImport, "Acme", "A.cs", 1⟩] ∧
      ∀ name, ¬ KnownUnder acmeProject { knownNamespaces := [("Acme", [])] } "Acme" name := by
  constructor
  · refine List.perm_singleton.mp ?_
    rw [Project.deadCode, acmeProject, List.flatMap_cons, List.flatMap_nil, List.append_nil]
    exact (Facts.deadCode_perm _ _ _).trans (List.Perm.of_eq (by decide))
  · intro name hname
    cases hname with
    | declared h => exact acmeProject_declares_nothing _ _ h
    | wellKnown names listed h =>
      have hnone : Project.builtin? "Acme" = none := by decide
      rw [hnone] at listed
      cases listed
    | configured names listed h =>
      obtain rfl := (Prod.mk.inj (List.mem_singleton.mp listed)).2
      exact absurd h List.not_mem_nil

end CodeSmell
