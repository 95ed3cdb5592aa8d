import CodeSmell.Proofs.Project.Growth
import Mathlib.Data.List.Forall2

/-!
# Reports under other options

* `DeadCode.isAboutOneOf` : the findings about declarations with certain symbols;
  `Facts.deadCode_withEntryPoints` says that these are what more entry points take from a report;
* `NameTable.Within` : whatever a table lists another lists as well;
* `NameTable.Joins` : a table has all that several tables list for each of their paths;
* `importIsUsed_of_within` : a directive that is used stays so if more names are known of its path, unless
  nothing was known of it;
* `Facts.deadCode_congr_options` : options that list the same give the same report;
* `options_monotone` : what other entry points, more names and other tables do to the report of a project.
-/

namespace CodeSmell

/-! ## Entry points -/

/-- Whether a finding is about a declaration with one of some symbols. -/
def DeadCode.isAboutOneOf (symbols : List String) (x : DeadCode) : Bool :=
  x.kind == .unreferencedDeclaration && symbols.contains (symbolName x.identifier)

section EntryPoints

variable {o : DeadCodeOptions} {names : List String} (h : o.entryPoints ⊆ names)
include h

/-- With more entry points the candidates are those whose symbol has not been added. -/
theorem isCandidate_withEntryPoints (d : Declaration) :
    isCandidate (o.withEntryPoints names) d =
      (isCandidate o d && !(names.filter (!o.entryPoints.contains ·)).contains d.symbol) := by
  have hnames : names.contains d.symbol = (o.entryPoints.contains d.symbol ||
      (names.filter (!o.entryPoints.contains ·)).contains d.symbol) := by
    rw [Bool.eq_iff_iff]
    simp only [Bool.or_eq_true, List.contains_iff_mem, List.mem_filter, Bool.not_eq_true',
      ← Bool.not_eq_true]
    constructor
    · intro hadded
      by_cases hbefore : d.symbol ∈ o.entryPoints
      · exact .inl hbefore
      · exact .inr ⟨hadded, hbefore⟩
    · rintro (hbefore | ⟨hadded, -⟩)
      · exact h hbefore
      · exact hadded
  unfold isCandidate
  show (!d.kind.isExempt && !d.isOverride && !isDiscard d.symbol && !names.contains d.symbol) = _
  rw [hnames, Bool.not_or, ← Bool.and_assoc]

namespace Facts

variable (f : Facts) (p : Project)

theorem unreferenced_withEntryPoints :
    f.unreferenced p (o.withEntryPoints names) = (f.unreferenced p o).filter fun found =>
      !found.2.isAboutOneOf (names.filter (!o.entryPoints.contains ·)) := by
  unfold unreferenced
  rw [List.filter_map, List.filter_filter]
  refine congrArg _ (List.filter_congr fun d _ => ?_)
  rw [isCandidate_withEntryPoints h]
  show _ = (!(names.filter (!o.entryPoints.contains ·)).contains d.symbol && _)
  ac_rfl

theorem deadCode_withEntryPoints :
    f.deadCode p (o.withEntryPoints names) = (f.deadCode p o).filter fun x =>
      !x.isAboutOneOf (names.filter (!o.entryPoints.contains ·)) := by
  have himports : (f.unusedImports p o).filter (fun found =>
      !found.2.isAboutOneOf (names.filter (!o.entryPoints.contains ·))) = f.unusedImports p o := by
    refine List.filter_eq_self.mpr fun found hfound => ?_
    obtain ⟨u, -, rfl⟩ := List.mem_map.mp hfound
    rfl
  show inOrder (f.unusedImports p o ++ f.unreferenced p (o.withEntryPoints names)) =
    (inOrder (f.unusedImports p o ++ f.unreferenced p o)).filter _
  rw [unreferenced_withEntryPoints h, inOrder, inOrder, List.filter_map, Function.comp_def,
    filter_mergeSort Located.trans Located.total, List.filter_append, himports]

end Facts

end EntryPoints

/-! ## Tables of names -/

/-- Namespaces with names that they provide. -/
abbrev NameTable := List (String × List String)

namespace NameTable

/-- Whatever a table lists another lists as well. -/
structure Within (a b : NameTable) : Prop where
  paths : ∀ {path names}, (path, names) ∈ a → ∃ names', (path, names') ∈ b
  names : ∀ {path names name}, (path, names) ∈ a → name ∈ names →
    ∃ names', (path, names') ∈ b ∧ name ∈ names'

theorem within_of_subset {a b : NameTable} (h : a ⊆ b) : Within a b :=
  ⟨fun hentry => ⟨_, h hentry⟩, fun hentry hname => ⟨_, h hentry, hname⟩⟩

theorem Within.append {a b a' b' : NameTable} (h : Within a b) (h' : Within a' b') :
    Within (a ++ a') (b ++ b') where
  paths hentry := by
    rcases List.mem_append.mp hentry with hentry | hentry
    · exact (h.paths hentry).imp fun _ => List.mem_append_left b'
    · exact (h'.paths hentry).imp fun _ => List.mem_append_right b
  names hentry hname := by
    rcases List.mem_append.mp hentry with hentry | hentry
    · exact (h.names hentry hname).imp fun _ => And.imp_left (List.mem_append_left b')
    · exact (h'.names hentry hname).imp fun _ => And.imp_left (List.mem_append_right b)

/-- A table has all that several tables list: for each path that one of them has, the names that they
list for it, one list behind the other in whichever order. -/
structure Joins (tables : List NameTable) (one : NameTable) : Prop where
  paths : ∀ path, path ∈ one.map (·.1) ↔ path ∈ tables.flatten.map (·.1)
  names : ∀ entry ∈ one, entry.2.Perm ((tables.flatten.filter (·.1 == entry.1)).flatMap (·.2))

namespace Joins

variable {tables : List NameTable} {one : NameTable} (h : Joins tables one)
include h

theorem within : Within tables.flatten one where
  paths {path names} hentry := by
    obtain ⟨⟨_, names'⟩, hone, rfl⟩ :=
      List.mem_map.mp ((h.paths path).mpr (List.mem_map_of_mem hentry))
    exact ⟨names', hone⟩
  names {path names name} hentry hname := by
    obtain ⟨⟨_, names'⟩, hone, rfl⟩ :=
      List.mem_map.mp ((h.paths path).mpr (List.mem_map_of_mem hentry))
    refine ⟨names', hone, (h.names _ hone).mem_iff.mpr ?_⟩
    exact List.mem_flatMap.mpr ⟨_, List.mem_filter.mpr ⟨hentry, beq_self_eq_true _⟩, hname⟩

theorem within_flatten : Within one tables.flatten where
  paths {path names} hone := by
    obtain ⟨⟨_, names'⟩, hentry, rfl⟩ :=
      List.mem_map.mp ((h.paths path).mp (List.mem_map_of_mem hone))
    exact ⟨names', hentry⟩
  names {path names name} hone hname := by
    obtain ⟨⟨other, names'⟩, hkept, hgiven⟩ :=
      List.mem_flatMap.mp ((h.names _ hone).mem_iff.mp hname)
    obtain ⟨hentry, hpath⟩ := List.mem_filter.mp hkept
    obtain rfl : other = path := eq_of_beq hpath
    exact ⟨names', hentry, hgiven⟩

end Joins

/-- Tables that are joined group by group list what all tables of the groups do. -/
theorem within_of_joins {groups : List (List NameTable)} {ones : List NameTable}
    (h : List.Forall₂ Joins groups ones) :
    Within groups.flatten.flatten ones.flatten ∧ Within ones.flatten groups.flatten.flatten := by
  induction h with
  | nil => exact ⟨within_of_subset (List.Subset.refl _), within_of_subset (List.Subset.refl _)⟩
  | cons hjoins _ ih =>
    rw [List.flatten_cons, List.flatten_append, List.flatten_cons]
    exact ⟨hjoins.within.append ih.1, hjoins.within_flatten.append ih.2⟩

end NameTable

namespace DeadCodeOptions

/-- With the namespaces of several tables, given one after the other. -/
def withTables (o : DeadCodeOptions) (tables : List NameTable) : DeadCodeOptions :=
  tables.foldl withKnownNamespaces o

theorem withTables_eq (o : DeadCodeOptions) (tables : List NameTable) :
    o.withTables tables = o.withKnownNamespaces tables.flatten := by
  induction tables generalizing o with
  | nil =>
    show o = { o with knownNamespaces := o.knownNamespaces ++ [] }
    rw [List.append_nil]
  | cons table rest ih =>
    show (o.withKnownNamespaces table).withTables rest = _
    rw [ih]
    show ({ o with knownNamespaces := o.knownNamespaces ++ table ++ rest.flatten } :
      DeadCodeOptions) = { o with knownNamespaces := o.knownNamespaces ++ (table ++ rest.flatten) }
    rw [List.append_assoc]

end DeadCodeOptions

/-! ## Verdicts -/

section Verdicts

variable {p : Project} {o o' : DeadCodeOptions}

theorem providedBy_ne_nil_iff {path : String} :
    providedBy p o path ≠ [] ↔ (p.declaredIn? path).isSome ∨ (Project.builtin? path).isSome ∨
      (o.known? path).isSome := by
  simp only [providedBy, ne_eq, List.append_eq_nil_iff, Option.toList_eq_nil_iff, not_and_or,
    ← Option.isSome_iff_ne_none, or_assoc]

theorem KnownUnder.of_within (h : NameTable.Within o.knownNamespaces o'.knownNamespaces)
    {path name : String} (hknown : KnownUnder p o path name) : KnownUnder p o' path name := by
  cases hknown with
  | declared h => exact .declared h
  | wellKnown names listed hname => exact .wellKnown names listed hname
  | configured names listed hname =>
    obtain ⟨names', listed', hname'⟩ := h.names listed hname
    exact .configured names' listed' hname'

/-- A directive that is used stays so with more options, if these list its path only where something
has been known of it. -/
theorem importIsUsed_of_within {usage : Usage} {u : UsingDirective}
    (h : NameTable.Within o.knownNamespaces o'.knownNamespaces)
    (hentry : ∀ names, (u.path, names) ∈ o'.knownNamespaces → providedBy p o u.path ≠ [])
    (hused : importIsUsed p o usage u = true) : importIsUsed p o' usage u = true := by
  cases halias : u.aliasName with
  | some name =>
    rw [importIsUsed_of_alias halias] at hused ⊢
    exact hused
  | none =>
    rw [importIsUsed_of_no_alias halias] at hused ⊢
    rcases hused with hopen | hquery | hnothing | ⟨name, hname, hmentioned⟩
    · exact .inl hopen
    · exact .inr (.inl hquery)
    · refine .inr (.inr (.inl ?_))
      have hunlisted : ∀ names, (u.path, names) ∉ o'.knownNamespaces :=
        fun names hlisted => hentry names hlisted hnothing
      rw [providedBy_eq_nil_iff] at hnothing ⊢
      refine ⟨fun name hname => ?_, hunlisted⟩
      cases hname with
      | declared h => exact hnothing.1 name (.declared h)
      | wellKnown names listed hmem => exact hnothing.1 name (.wellKnown names listed hmem)
      | configured names listed hmem => exact hunlisted names listed
    · exact .inr (.inr (.inr ⟨name, hname.of_within h, hmentioned⟩))

namespace Facts

variable (f : Facts)

theorem unreferenced_congr_options (h : o.entryPoints = o'.entryPoints) :
    f.unreferenced p o = f.unreferenced p o' := by
  unfold unreferenced isCandidate
  rw [h]

/-- More names for paths of which something is known take directives from a report and add none. -/
theorem deadCode_sublist_of_within (hpoints : o.entryPoints = o'.entryPoints)
    (h : NameTable.Within o.knownNamespaces o'.knownNamespaces)
    (hentry : ∀ path names, (path, names) ∈ o'.knownNamespaces → providedBy p o path ≠ []) :
    (f.deadCode p o').Sublist (f.deadCode p o) := by
  have himports : (f.unusedImports p o').Sublist (f.unusedImports p o) := by
    refine List.Sublist.map _ (List.monotone_filter_right _ fun u hunused => ?_)
    rw [Bool.not_eq_true', ← Bool.not_eq_true] at hunused ⊢
    exact fun hused => hunused (importIsUsed_of_within h (hentry u.path) hused)
  unfold deadCode
  rw [f.unreferenced_congr_options hpoints]
  exact (sublist_mergeSort_of_sublist Located.trans Located.total
    (himports.append_right _)).map _

/-- Options that list the same give the same report. -/
theorem deadCode_congr_options (hpoints : o.entryPoints = o'.entryPoints)
    (h : NameTable.Within o.knownNamespaces o'.knownNamespaces)
    (h' : NameTable.Within o'.knownNamespaces o.knownNamespaces) :
    f.deadCode p o = f.deadCode p o' := by
  have hlisted {o : DeadCodeOptions} {path : String} {names : List String}
      (hmem : (path, names) ∈ o.knownNamespaces) : providedBy p o path ≠ [] :=
    fun hnil => (providedBy_eq_nil_iff.mp hnil).2 names hmem
  have hforth : (f.deadCode p o').Sublist (f.deadCode p o) := by
    refine f.deadCode_sublist_of_within hpoints h fun path names hmem => ?_
    exact (h'.paths hmem).elim fun _ => hlisted
  have hback : (f.deadCode p o).Sublist (f.deadCode p o') := by
    refine f.deadCode_sublist_of_within hpoints.symm h' fun path names hmem => ?_
    exact (h.paths hmem).elim fun _ => hlisted
  exact hback.antisymm hforth

end Facts

end Verdicts

/-! ## The report of a project -/

/-- **What other options do to a report.** More entry points take from it the findings about
declarations with a symbol that has been added, and nothing else. More names for namespaces of which
something is known add no finding. Tables that are given in another order, or joined group by group,
give the same report. -/
theorem options_monotone (p : Project) (o : DeadCodeOptions) :
    (∀ names, o.entryPoints ⊆ names →
      p.deadCode (o.withEntryPoints names) = (p.deadCode o).filter fun x =>
        !x.isAboutOneOf (names.filter (!o.entryPoints.contains ·))) ∧
    (∀ more : NameTable,
      (∀ entry ∈ more, (p.declaredIn? entry.1).isSome ∨ (Project.builtin? entry.1).isSome ∨
        (o.known? entry.1).isSome) →
      (p.deadCode (o.withKnownNamespaces more)).Sublist (p.deadCode o)) ∧
    (∀ calls calls' : List NameTable, calls.Perm calls' →
      p.deadCode (o.withTables calls) = p.deadCode (o.withTables calls')) ∧
    ∀ (groups : List (List NameTable)) (ones : List NameTable),
      List.Forall₂ NameTable.Joins groups ones →
      p.deadCode (o.withTables ones) = p.deadCode (o.withTables groups.flatten) := by
  have hsame {a b : NameTable} (hab : NameTable.Within a b) (hba : NameTable.Within b a) :
      p.deadCode (o.withKnownNamespaces a) = p.deadCode (o.withKnownNamespaces b) := by
    have hown := NameTable.within_of_subset (List.Subset.refl o.knownNamespaces)
    exact List.flatMap_congr fun f _ =>
      f.deadCode_congr_options rfl (hown.append hab) (hown.append hba)
  refine ⟨fun names h => ?_, fun more hmore => ?_, fun calls calls' h => ?_, fun groups ones h => ?_⟩
  · rw [Project.deadCode, Project.deadCode, List.filter_flatMap]
    exact List.flatMap_congr fun f _ => f.deadCode_withEntryPoints h p
  · refine List.Sublist.flatMap_right _ fun f _ => ?_
    refine f.deadCode_sublist_of_within rfl
      (NameTable.within_of_subset (List.subset_append_left _ more)) fun path names hmem => ?_
    rcases List.mem_append.mp hmem with hbefore | hadded
    · exact fun hnil => (providedBy_eq_nil_iff.mp hnil).2 names hbefore
    · exact providedBy_ne_nil_iff.mpr (hmore (path, names) hadded)
  · rw [o.withTables_eq, o.withTables_eq]
    have hperm := h.flatten
    exact hsame (NameTable.within_of_subset hperm.subset)
      (NameTable.within_of_subset hperm.symm.subset)
  · rw [o.withTables_eq, o.withTables_eq]
    obtain ⟨hforth, hback⟩ := NameTable.within_of_joins h
    exact hsame hback hforth

/-- Two tables, and one that joins them. -/
def acmeTables : List NameTable × NameTable :=
  ([[("Acme", ["Meter"])], [("Acme", ["Dial"]), ("Apex", [])]],
    [("Apex", []), ("Acme", ["Meter", "Dial"])])

/-- The field `b` is spared as an entry point. One more name for `Acme` adds no finding, and two tables
are as good in the other order, or joined. -/
theorem acmeTables_same :
    let small := Project.ofFiles smallGrammar smallProject
    let o : DeadCodeOptions := { knownNamespaces := [("Acme", ["Gauge"])] }
    (o.entryPoints ⊆ ["b", "Main"] ∧
      ⟨.unreferencedDeclaration, "b", "Shapes.cs", 1⟩ ∉
        small.deadCode (o.withEntryPoints ["b", "Main"])) ∧
    ((o.known? "Acme").isSome ∧
      (acmeProject.deadCode (o.withKnownNamespaces [("Acme", ["Meter"])])).Sublist
        (acmeProject.deadCode o)) ∧
    (acmeTables.1.Perm acmeTables.1.reverse ∧
      acmeProject.deadCode (o.withTables acmeTables.1) =
        acmeProject.deadCode (o.withTables acmeTables.1.reverse)) ∧
    NameTable.Joins acmeTables.1 acmeTables.2 ∧
      acmeProject.deadCode (o.withTables [acmeTables.2]) =
        acmeProject.deadCode (o.withTables acmeTables.1) := by
  intro small o
  obtain ⟨hpoints, -⟩ := options_monotone small o
  obtain ⟨-, hmore, hordered, hjoined⟩ := options_monotone acmeProject o
  have hnames : o.entryPoints ⊆ ["b", "Main"] := by decide
  have hknown : (o.known? "Acme").isSome := by decide
  have hperm : acmeTables.1.Perm acmeTables.1.reverse := (List.reverse_perm _).symm
  have hjoins : NameTable.Joins acmeTables.1 acmeTables.2 := by
    refine ⟨fun path => ?_, by decide⟩
    show path ∈ ["Apex", "Acme"] ↔ path ∈ ["Acme", "Acme", "Apex"]
    simp [or_comm]
  refine ⟨⟨hnames, fun hfound => ?_⟩, ⟨hknown, hmore _ fun entry hentry => ?_⟩,
    ⟨hperm, hordered _ _ hperm⟩, hjoins, hjoined [acmeTables.1] [acmeTables.2] ?_⟩
  · rw [hpoints _ hnames] at hfound
    exact absurd (List.mem_filter.mp hfound).2 (by decide)
  · rw [List.mem_singleton.mp hentry]
    exact .inr (.inr hknown)
  · exact .cons hjoins .nil

end CodeSmell
