import CodeSmell.Proofs.Project.Composition
import Mathlib.Data.List.Flatten

/-!
# More code

* `sublist_mergeSort_of_sublist`, `filter_mergeSort` : sorting keeps the order of what it does not tell
  apart, so that it makes no difference whether some of a list are picked before or after;
* `Facts.deadCode_declarations_eq` : the findings about declarations, in the order of a report;
  `deadCode_declarations_sublist` says that a project around another has no more of them;
* `Facts.not_condemned_of_within` : it spares the directives that the other spares, unless it declares
  more there;
* `Project.not_condemned_of_file` : a global directive is spared if one of the files would be spared the
  same directive for itself;
* `more_code_clears` : these together, for sources among others.
-/

namespace CodeSmell

/-! ## Sorting some of a list -/

/-- Around an element of a sorted list, comparing with it tells what comes before from what comes
behind. -/
theorem filter_le_of_pairwise {α : Type} {le : α → α → Bool} {a : α} {front behind : List α}
    (hsorted : (front ++ a :: behind).Pairwise fun x y => le x y = true)
    (hfront : ∀ b ∈ front, (!le a b) = true) :
    (front ++ behind).filter (le a ·) = behind ∧ (front ++ behind).filter (!le a ·) = front := by
  have hbehind : ∀ b ∈ behind, le a b = true :=
    fun b => List.rel_of_pairwise_cons (List.pairwise_append.mp hsorted).2.1
  have hnone : front.filter (le a ·) = [] := by
    refine List.filter_eq_nil_iff.mpr fun b hb hle => ?_
    have hnot := hfront b hb
    rw [hle] at hnot
    cases hnot
  have hnone' : behind.filter (!le a ·) = [] := by
    refine List.filter_eq_nil_iff.mpr fun b hb hnot => ?_
    rw [hbehind b hb] at hnot
    cases hnot
  constructor
  · rw [List.filter_append, hnone, List.filter_eq_self.mpr hbehind, List.nil_append]
  · rw [List.filter_append, hnone', List.filter_eq_self.mpr hfront, List.append_nil]

section Sorting

variable {α : Type} {le : α → α → Bool}
  (trans : ∀ a b c, le a b = true → le b c = true → le a c = true)
  (total : ∀ a b, (le a b || le b a) = true)
include trans total

/-- Some of a list come in the same order when the list is sorted and when they are. -/
theorem sublist_mergeSort_of_sublist {xs ys : List α} (h : xs.Sublist ys) :
    (xs.mergeSort le).Sublist (ys.mergeSort le) := by
  induction h with
  | slnil => exact List.Sublist.refl _
  | @cons xs ys a h ih =>
    obtain ⟨front, behind, hsort, hrest, -⟩ := List.mergeSort_cons trans total a ys
    rw [hrest] at ih
    rw [hsort]
    exact ih.trans (List.Sublist.append_left (List.sublist_cons_self a behind) front)
  | @cons_cons xs ys a h ih =>
    -- the element stands between what is less and what is not, in both of the sorted lists
    obtain ⟨front, behind, hsort, hrest, hfront⟩ := List.mergeSort_cons trans total a xs
    obtain ⟨front', behind', hsort', hrest', hfront'⟩ := List.mergeSort_cons trans total a ys
    have hsorted := List.pairwise_mergeSort trans total (a :: xs)
    have hsorted' := List.pairwise_mergeSort trans total (a :: ys)
    rw [hsort] at hsorted
    rw [hsort'] at hsorted'
    obtain ⟨hhigh, hlow⟩ := filter_le_of_pairwise hsorted hfront
    obtain ⟨hhigh', hlow'⟩ := filter_le_of_pairwise hsorted' hfront'
    rw [hrest, hrest'] at ih
    have hfronts : front.Sublist front' := by
      rw [← hlow, ← hlow']
      exact ih.filter _
    have hbehinds : behind.Sublist behind' := by
      rw [← hhigh, ← hhigh']
      exact ih.filter _
    rw [hsort, hsort']
    exact hfronts.append (hbehinds.cons_cons a)

theorem filter_mergeSort (p : α → Bool) (xs : List α) :
    (xs.mergeSort le).filter p = (xs.filter p).mergeSort le := by
  have hkept : ((xs.filter p).mergeSort le).filter p = (xs.filter p).mergeSort le := by
    refine List.filter_eq_self.mpr fun x hx => ?_
    exact (List.mem_filter.mp (List.mem_mergeSort.mp hx)).2
  have hsublist :=
    (sublist_mergeSort_of_sublist trans total (xs.filter_sublist (p := p))).filter p
  rw [hkept] at hsublist
  refine (hsublist.eq_of_length ?_).symm
  rw [List.length_mergeSort, ((List.mergeSort_perm xs le).filter p).length_eq]

end Sorting

/-! ## Declarations -/

namespace Facts

variable (f : Facts) {p q : Project} {o : DeadCodeOptions}

/-- Findings by the offset that they are reported at. -/
def inOrder (found : List Located) : List DeadCode :=
  (found.mergeSort fun a b => a.1 ≤ b.1).map (·.2)

theorem Located.trans (a b c : Located) (hab : decide (a.1 ≤ b.1) = true)
    (hbc : decide (b.1 ≤ c.1) = true) : decide (a.1 ≤ c.1) = true := by
  rw [decide_eq_true_iff] at hab hbc ⊢
  exact hab.trans hbc

theorem Located.total (a b : Located) :
    (decide (a.1 ≤ b.1) || decide (b.1 ≤ a.1)) = true := by
  rw [Bool.or_eq_true, decide_eq_true_iff, decide_eq_true_iff]
  exact Nat.le_total a.1 b.1

/-- The findings about declarations, in the order of a report. -/
theorem deadCode_declarations_eq :
    (f.deadCode p o).filter (·.kind == .unreferencedDeclaration) = inOrder (f.unreferenced p o) := by
  have himports : (f.unusedImports p o).filter (·.2.kind == .unreferencedDeclaration) = [] := by
    refine List.filter_eq_nil_iff.mpr fun found hfound hkind => ?_
    obtain ⟨u, -, rfl⟩ := List.mem_map.mp hfound
    cases hkind
  have hdeclarations : (f.unreferenced p o).filter (·.2.kind == .unreferencedDeclaration) =
      f.unreferenced p o := by
    refine List.filter_eq_self.mpr fun found hfound => ?_
    obtain ⟨d, -, rfl⟩ := List.mem_map.mp hfound
    rfl
  calc (f.deadCode p o).filter (·.kind == .unreferencedDeclaration)
      = (((f.unusedImports p o ++ f.unreferenced p o).mergeSort fun a b => a.1 ≤ b.1).filter
          (·.2.kind == .unreferencedDeclaration)).map (·.2) := List.filter_map
    _ = inOrder ((f.unusedImports p o ++ f.unreferenced p o).filter
          (·.2.kind == .unreferencedDeclaration)) := by
        rw [filter_mergeSort Located.trans Located.total, inOrder]
    _ = inOrder (f.unreferenced p o) := by
        rw [List.filter_append, himports, hdeclarations, List.nil_append]

/-- What is mentioned in a project is mentioned in one around it, so that less is unreferenced. -/
theorem unreferenced_sublist (h : p.Within q) :
    (f.unreferenced q o).Sublist (f.unreferenced p o) := by
  refine List.Sublist.map _ (List.monotone_filter_right _ fun d hdead => ?_)
  rw [Bool.and_eq_true, Bool.not_eq_true', ← Bool.not_eq_true, List.contains_iff_mem] at hdead ⊢
  exact ⟨hdead.1, fun hmentioned => hdead.2 (h.referenced hmentioned)⟩

theorem deadCode_declarations_sublist (h : p.Within q) :
    ((f.deadCode q o).filter (·.kind == .unreferencedDeclaration)).Sublist
      ((f.deadCode p o).filter (·.kind == .unreferencedDeclaration)) := by
  rw [deadCode_declarations_eq, deadCode_declarations_eq]
  exact (sublist_mergeSort_of_sublist Located.trans Located.total (f.unreferenced_sublist h)).map _

end Facts

/-! ## Directives -/

theorem Facts.not_mem_condemnedImports_iff {f : Facts} {p : Project} {o : DeadCodeOptions}
    {u : UsingDirective} (hu : u ∈ f.usings) :
    u ∉ f.condemnedImports p o ↔ importIsUsed p o (usageOf p f u) u = true := by
  rw [Facts.condemnedImports, List.mem_filter, Bool.not_eq_true', ← Bool.not_eq_true]
  simp [hu]

/-- A larger project needs each directive that was needed, unless it declares more under its path. -/
theorem Facts.not_condemned_of_within {f : Facts} {p q : Project} {o : DeadCodeOptions}
    {u : UsingDirective} (h : p.Within q) (hu : u ∈ f.usings)
    (hdeclares : ∀ name, q.Declares u.path name → p.Declares u.path name)
    (hspared : u ∉ f.condemnedImports p o) : u ∉ f.condemnedImports q o := by
  rw [not_mem_condemnedImports_iff hu] at hspared ⊢
  have hsame (name : String) : p.Declares u.path name ↔ q.Declares u.path name :=
    ⟨h.declares, hdeclares name⟩
  exact importIsUsed_mono rfl rfl hsame (h.usageOf f u) hspared

namespace Project

/-- A project in which a file has other directives. -/
def withUsings (before : List Facts) (f : Facts) (after : List Facts) (usings : List UsingDirective) :
    Project :=
  ⟨before ++ { f with usings } :: after⟩

theorem withUsings_declares_iff {before after : List Facts} {f : Facts}
    {usings : List UsingDirective} {scope name : String} :
    (withUsings before f after usings).Declares scope name ↔
      Project.Declares ⟨before ++ f :: after⟩ scope name := by
  simp [Declares, withUsings, or_and_right, exists_or]

/-- A global directive is needed if one of the files would need the same directive for itself. -/
theorem not_condemned_of_file {p : Project} {o : DeadCodeOptions} {before after : List Facts}
    {f g : Facts} {usings : List UsingDirective} {u v : UsingDirective}
    (hfiles : p.files = before ++ f :: after) (hu : u ∈ g.usings) (hglobal : u.isGlobal = true)
    (hv : v ∈ usings) (hlocal : v.isGlobal = false) (hpath : u.path = v.path)
    (halias : u.aliasName = v.aliasName)
    (hspared : v ∉ ({ f with usings } : Facts).condemnedImports
      (withUsings before f after usings) o) : u ∉ g.condemnedImports p o := by
  rw [Facts.not_mem_condemnedImports_iff hu]
  rw [Facts.not_mem_condemnedImports_iff hv] at hspared
  have hf : f ∈ p.files := by
    rw [hfiles]
    exact List.mem_append_right before List.mem_cons_self
  have hsame (name : String) :
      (withUsings before f after usings).Declares v.path name ↔ p.Declares v.path name := by
    rw [withUsings_declares_iff, ← hfiles]
  have husage : (usageOf (withUsings before f after usings) { f with usings } v).Within
      (usageOf p g u) := by
    rw [usageOf, hlocal, usageOf, hglobal]
    refine ⟨fun name hname => List.mem_flatMap.mpr ⟨f, hf, hname⟩, fun hquery => ?_⟩
    exact List.any_eq_true.mpr ⟨f, hf, hquery⟩
  exact importIsUsed_mono hpath halias hsame husage hspared

end Project

/-- **More code never makes a declaration look dead.** Of the sources of a project, a project with more
sources among them reports some of the declarations that it reports without these, in the same order.
It reports no other directives than it reports without these, save those for a namespace or type in
which it declares more. A global directive is spared if one of the files would be spared the same
directive without `global`. -/
theorem more_code_clears (o : DeadCodeOptions) {sources more : List Source}
    (h : sources.Sublist more) :
    ((Project.ofSources more).deadCode o =
        more.flatMap (·.deadCodeIn (Project.ofSources more) o) ∧
      ((sources.flatMap (·.deadCodeIn (Project.ofSources more) o)).filter
          (·.kind == .unreferencedDeclaration)).Sublist
        (((Project.ofSources sources).deadCode o).filter (·.kind == .unreferencedDeclaration))) ∧
    (∀ (p : Project) (f : Facts), ((f.deadCode p o).filter (·.kind == .unusedImport)).Perm
      ((f.condemnedImports p o).map (·.finding f.path))) ∧
    (∀ f ∈ (Project.ofSources sources).files, ∀ u ∈ f.usings,
      (∀ name, (Project.ofSources more).Declares u.path name →
        (Project.ofSources sources).Declares u.path name) →
      u ∉ f.condemnedImports (Project.ofSources sources) o →
        u ∉ f.condemnedImports (Project.ofSources more) o) ∧
    ∀ before f after usings, (Project.ofSources more).files = before ++ f :: after →
      ∀ v ∈ usings, v.isGlobal = false →
        v ∉ ({ f with usings } : Facts).condemnedImports
          (Project.withUsings before f after usings) o →
        ∀ g ∈ (Project.ofSources more).files, ∀ u ∈ g.usings, u.isGlobal = true →
          u.path = v.path → u.aliasName = v.aliasName →
            u ∉ g.condemnedImports (Project.ofSources more) o := by
  have hwithin := Project.ofSources_within h.subset
  refine ⟨⟨Project.deadCode_ofSources more o, ?_⟩, fun p f => f.deadCode_imports p o, ?_, ?_⟩
  · rw [Project.deadCode_ofSources sources, List.filter_flatMap, List.filter_flatMap]
    refine List.Sublist.flatMap_right sources fun s _ => ?_
    unfold Source.deadCodeIn
    rw [List.filter_flatMap, List.filter_flatMap]
    exact List.Sublist.flatMap_right _ fun f _ => f.deadCode_declarations_sublist hwithin
  · intro f _ u hu hdeclares hspared
    exact Facts.not_condemned_of_within hwithin hu hdeclares hspared
  · intro before f after usings hfiles v hv hlocal hspared g _ u hu hglobal hpath halias
    exact Project.not_condemned_of_file hfiles hu hglobal hv hlocal hpath halias hspared

/-- The sources of the small project, behind a copy of the file that has a directive for `N.M`. -/
def copiedSources : List Source :=
  Source.read smallGrammar "Copy.cs" Syntax.Node.importing.text :: smallSources

/-- With the copy no other declarations are reported, and the directive is still spared. -/
theorem copiedSources_clear :
    smallSources.Sublist copiedSources ∧
    ((smallSources.flatMap (·.deadCodeIn (Project.ofSources copiedSources) {})).filter
        (·.kind == .unreferencedDeclaration)).Sublist
      (((Project.ofSources smallSources).deadCode {}).filter
        (·.kind == .unreferencedDeclaration)) ∧
    ⟨"N.M", none, false, false, ⟨0, 1⟩⟩ ∉
      (factsIn smallGrammar ("Use.cs", Syntax.Node.importing.text)).condemnedImports
        (Project.ofSources copiedSources) {} := by
  have hmore : smallSources.Sublist copiedSources := List.sublist_cons_self _ _
  obtain ⟨⟨-, hdeclarations⟩, -, himports, -⟩ := more_code_clears {} hmore
  have huse : factsIn smallGrammar ("Use.cs", Syntax.Node.importing.text) ∈
      (Project.ofSources smallSources).files := by
    change _ ∈ (Project.ofFiles smallGrammar smallProject).files
    rw [Project.ofFiles_files]
    exact List.mem_map_of_mem (List.mem_filter.mpr ⟨by decide, by decide⟩)
  refine ⟨hmore, hdeclarations, himports _ huse _ (by decide) ?_ (by decide)⟩
  have hindex : ∀ entry ∈ (Project.ofSources copiedSources).scopeEntries,
      entry ∈ (Project.ofSources smallSources).scopeEntries := by decide
  intro name hname
  rw [← Project.mem_scopeEntries_iff] at hname ⊢
  exact hindex _ hname

end CodeSmell
