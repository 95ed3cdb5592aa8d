import CodeSmell.Proofs.Project.UnusedImports
import Mathlib.Data.Finset.Dedup

/-!
# Projects and the files that they are made of

* `Source.deadCodeIn` : what is reported of one source as part of a project; a report on a project has
  these one after the other (`deadCode_ofSources`);
* `Project.Within` : a project mentions and declares no more than another, as it does if the other has
  all of its files (`within_of_subset`);
* `importIsUsed_mono` : a directive that is used stays so where more is mentioned and the same is known;
* `Facts.deadCode_congr` : of a file the same is reported in projects that lie within each other;
* `file_order_irrelevant` : the order of the files has no say in what is reported of each.
-/

namespace CodeSmell

/-! ## Reports, source by source -/

/-- What is reported of a source as part of a project. Of one that could not be analyzed that is
nothing. -/
def Source.deadCodeIn (s : Source) (p : Project) (o : DeadCodeOptions) : List DeadCode :=
  s.facts.toList.flatMap (·.deadCode p o)

namespace Project

/-- What is gathered from the facts of all sources is gathered from the files of the project. -/
theorem flatMap_facts {α : Type} (g : Facts → List α) (sources : List Source) :
    (sources.flatMap fun s => s.facts.toList.flatMap g) = (ofSources sources).files.flatMap g := by
  rw [ofSources, List.filterMap_eq_flatMap_toList, List.flatMap_assoc]

theorem deadCode_ofSources (sources : List Source) (o : DeadCodeOptions) :
    (ofSources sources).deadCode o = sources.flatMap (·.deadCodeIn (ofSources sources) o) :=
  (flatMap_facts _ sources).symm

theorem mem_ofSources_files {sources : List Source} {f : Facts} :
    f ∈ (ofSources sources).files ↔ ∃ s ∈ sources, s.facts = some f :=
  List.mem_filterMap

/-! ## Projects within others -/

/-- Whatever a project mentions and declares another does as well. -/
structure Within (p q : Project) : Prop where
  referenced : p.referenced ⊆ q.referenced
  declares : ∀ {scope name}, p.Declares scope name → q.Declares scope name
  usesQuery : p.usesQuery = true → q.usesQuery = true

theorem within_of_subset {p q : Project} (h : p.files ⊆ q.files) : p.Within q where
  referenced name hname := by
    obtain ⟨f, hf, hmentions⟩ := List.mem_flatMap.mp hname
    exact List.mem_flatMap.mpr ⟨f, h hf, hmentions⟩
  declares := by
    rintro scope name ⟨f, hf, hdeclares⟩
    exact ⟨f, h hf, hdeclares⟩
  usesQuery hquery := by
    obtain ⟨f, hf, huses⟩ := List.any_eq_true.mp hquery
    exact List.any_eq_true.mpr ⟨f, h hf, huses⟩

theorem ofSources_within {sources more : List Source} (h : sources ⊆ more) :
    (ofSources sources).Within (ofSources more) := by
  refine within_of_subset fun f hf => ?_
  obtain ⟨s, hs, hfacts⟩ := mem_ofSources_files.mp hf
  exact mem_ofSources_files.mpr ⟨s, h hs, hfacts⟩

end Project

/-! ## Directives -/

/-- Whatever is mentioned at one place is mentioned at another as well. -/
structure Usage.Within (a b : Usage) : Prop where
  names : a.names ⊆ b.names
  query : a.query = true → b.query = true

theorem Project.Within.usageOf {p q : Project} (h : p.Within q) (f : Facts) (u : UsingDirective) :
    (CodeSmell.usageOf p f u).Within (CodeSmell.usageOf q f u) := by
  unfold CodeSmell.usageOf
  split
  · exact ⟨h.referenced, h.usesQuery⟩
  · exact ⟨List.Subset.refl _, id⟩

section Imports

variable {p q : Project} {o : DeadCodeOptions} {u v : UsingDirective}

theorem importIsUsed_of_alias {usage : Usage} {name : String} (halias : u.aliasName = some name) :
    importIsUsed p o usage u = true ↔ name ∈ usage.names := by
  unfold importIsUsed
  rw [halias]
  exact List.contains_iff_mem

/-- A directive without an alias is used if its path has more names than any list, if it is there for
a query expression, if nothing is known to come with its path, or if some of that is mentioned. -/
theorem importIsUsed_of_no_alias {usage : Usage} (halias : u.aliasName = none) :
    importIsUsed p o usage u = true ↔
      Project.isOpen u.path = true ∨ (usage.query = true ∧ u.path = queryNamespace) ∨
        providedBy p o u.path = [] ∨ ∃ name, KnownUnder p o u.path name ∧ name ∈ usage.names := by
  have hmentioned : ((providedBy p o u.path).any fun names => names.any usage.names.contains) =
      true ↔ ∃ name, KnownUnder p o u.path name ∧ name ∈ usage.names := by
    simp only [← mem_providedBy_iff, List.any_eq_true, List.contains_iff_mem]
    constructor
    · rintro ⟨names, hnames, name, hname, hmem⟩
      exact ⟨name, ⟨names, hnames, hname⟩, hmem⟩
    · rintro ⟨name, ⟨names, hnames, hname⟩, hmem⟩
      exact ⟨names, hnames, name, hname, hmem⟩
  unfold importIsUsed
  rw [halias]
  dsimp only
  rw [← hmentioned, ← List.isEmpty_iff, ← beq_iff_eq (a := u.path), ← Bool.and_eq_true,
    ← Bool.or_eq_true (providedBy p o u.path).isEmpty, ← or_assoc, ← Bool.or_eq_true]
  split
  · next hspared => simp [hspared]
  · next hspared => simp [hspared]

theorem KnownUnder.mono {path name : String}
    (hdeclares : p.Declares path name → q.Declares path name) (h : KnownUnder p o path name) :
    KnownUnder q o path name := by
  cases h with
  | declared h => exact .declared (hdeclares h)
  | wellKnown names listed h => exact .wellKnown names listed h
  | configured names listed h => exact .configured names listed h

/-- A directive that is used stays so where more is mentioned, if the same is known of its path. -/
theorem importIsUsed_mono {a b : Usage} (hpath : v.path = u.path) (halias : v.aliasName = u.aliasName)
    (hdeclares : ∀ name, p.Declares u.path name ↔ q.Declares u.path name) (hab : a.Within b)
    (h : importIsUsed p o a u = true) : importIsUsed q o b v = true := by
  have hknown (name : String) : KnownUnder p o u.path name ↔ KnownUnder q o u.path name :=
    ⟨.mono (hdeclares name).mp, .mono (hdeclares name).mpr⟩
  cases hu : u.aliasName with
  | some name =>
    rw [importIsUsed_of_alias hu] at h
    rw [importIsUsed_of_alias (halias.trans hu)]
    exact hab.names h
  | none =>
    rw [importIsUsed_of_no_alias hu] at h
    rw [importIsUsed_of_no_alias (halias.trans hu), hpath]
    rcases h with hopen | ⟨hquery, hfor⟩ | hnothing | ⟨name, hname, hmentioned⟩
    · exact .inl hopen
    · exact .inr (.inl ⟨hab.query hquery, hfor⟩)
    · refine .inr (.inr (.inl ?_))
      rw [providedBy_eq_nil_iff] at hnothing ⊢
      exact ⟨fun name hname => hnothing.1 name ((hknown name).mpr hname), hnothing.2⟩
    · exact .inr (.inr (.inr ⟨name, (hknown name).mp hname, hab.names hmentioned⟩))

end Imports

/-! ## The same project in another order -/

namespace Facts

variable {p q : Project} (hpq : p.Within q) (hqp : q.Within p)
include hpq hqp

theorem unusedImports_congr (f : Facts) (o : DeadCodeOptions) :
    f.unusedImports p o = f.unusedImports q o := by
  have hdeclares (scope name : String) : p.Declares scope name ↔ q.Declares scope name :=
    ⟨hpq.declares, hqp.declares⟩
  have hverdict (u : UsingDirective) :
      importIsUsed p o (usageOf p f u) u = importIsUsed q o (usageOf q f u) u := by
    rw [Bool.eq_iff_iff]
    constructor
    · exact importIsUsed_mono rfl rfl (hdeclares u.path) (hpq.usageOf f u)
    · exact importIsUsed_mono rfl rfl (fun name => (hdeclares u.path name).symm) (hqp.usageOf f u)
  unfold unusedImports
  simp only [hverdict]

theorem unreferenced_congr (f : Facts) (o : DeadCodeOptions) :
    f.unreferenced p o = f.unreferenced q o := by
  have hmentioned (name : String) : p.referenced.contains name = q.referenced.contains name := by
    rw [Bool.eq_iff_iff, List.contains_iff_mem, List.contains_iff_mem]
    exact ⟨fun h => hpq.referenced h, fun h => hqp.referenced h⟩
  unfold unreferenced
  simp only [hmentioned]

theorem deadCode_congr (f : Facts) (o : DeadCodeOptions) : f.deadCode p o = f.deadCode q o := by
  rw [deadCode, deadCode, unusedImports_congr hpq hqp, unreferenced_congr hpq hqp]

end Facts

namespace Project

/-- The index gives the same names for each scope in projects that lie within each other. -/
theorem declaredIn?_toFinset_congr {p q : Project} (hpq : p.Within q) (hqp : q.Within p)
    (scope : String) :
    (p.declaredIn? scope).map List.toFinset = (q.declaredIn? scope).map List.toFinset := by
  have hdeclares (name : String) : p.Declares scope name ↔ q.Declares scope name :=
    ⟨hpq.declares, hqp.declares⟩
  cases hp : p.declaredIn? scope with
  | none =>
    have hq : q.declaredIn? scope = none := by
      rw [declaredIn?_eq_none_iff] at hp ⊢
      exact fun name hname => hp name ((hdeclares name).mpr hname)
    rw [hq]
  | some names =>
    cases hq : q.declaredIn? scope with
    | none =>
      rw [declaredIn?_eq_none_iff] at hq
      have hnone : p.declaredIn? scope = none :=
        declaredIn?_eq_none_iff.mpr fun name hname => hq name ((hdeclares name).mp hname)
      rw [hnone] at hp
      cases hp
    | some names' =>
      have hmem (name : String) : name ∈ names ↔ name ∈ names' := by
        have hboth := hdeclares name
        rw [← mem_declaredIn?_iff, ← mem_declaredIn?_iff, hp, hq] at hboth
        simpa using hboth
      rw [Option.map_some, Option.map_some, Option.some_inj]
      ext name
      rw [List.mem_toFinset, List.mem_toFinset, hmem]

end Project

/-- **The order of the files is irrelevant.** In another order, a report has the same findings of each
source, and the project mentions the same names, has the same names in each scope and the same query
syntax. -/
theorem file_order_irrelevant (o : DeadCodeOptions) {sources sources' : List Source}
    (h : sources.Perm sources') :
    (Project.ofSources sources).deadCode o =
        sources.flatMap (·.deadCodeIn (Project.ofSources sources) o) ∧
      (Project.ofSources sources').deadCode o =
        sources'.flatMap (·.deadCodeIn (Project.ofSources sources) o) ∧
      (Project.ofSources sources').referenced.toFinset =
        (Project.ofSources sources).referenced.toFinset ∧
      (∀ scope, ((Project.ofSources sources').declaredIn? scope).map List.toFinset =
        ((Project.ofSources sources).declaredIn? scope).map List.toFinset) ∧
      (Project.ofSources sources').usesQuery = (Project.ofSources sources).usesQuery := by
  have hforth := Project.ofSources_within h.subset
  have hback := Project.ofSources_within h.symm.subset
  refine ⟨Project.deadCode_ofSources sources o, ?_, ?_,
    Project.declaredIn?_toFinset_congr hback hforth, ?_⟩
  · rw [Project.deadCode_ofSources]
    unfold Source.deadCodeIn
    simp only [Facts.deadCode_congr hback hforth]
  · ext name
    rw [List.mem_toFinset, List.mem_toFinset]
    exact ⟨fun hname => hback.referenced hname, fun hname => hforth.referenced hname⟩
  · rw [Bool.eq_iff_iff]
    exact ⟨hback.usesQuery, hforth.usesQuery⟩

def smallSources : List Source :=
  smallProject.map fun file => Source.read smallGrammar file.1 file.2

theorem smallSources_reversed :
    smallSources.Perm smallSources.reverse ∧
      (Project.ofSources smallSources.reverse).deadCode {} =
        smallSources.reverse.flatMap (·.deadCodeIn (Project.ofSources smallSources) {}) := by
  have hreversed := (List.reverse_perm smallSources).symm
  exact ⟨hreversed, (file_order_irrelevant {} hreversed).2.1⟩

end CodeSmell
