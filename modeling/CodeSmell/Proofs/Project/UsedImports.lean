import CodeSmell.Proofs.Facts.Context
import CodeSmell.Proofs.Project.Verdicts

/-!
# Directives for code of the project

* `Introduction.FoundThrough` : which directives make a declaration available by its simple name,
  said of the names of the namespaces and types around it;
* `Node.Offers` : whether a tree makes a name available to a directive, by where it has it;
* `FoundThrough.mem_scopeEntries`, `Offers.mem_scopeEntries` : what is available so is in the index
  of the project;
* `IsNeeded` : a directive for a namespace or type of the project is needed if a name that is offered
  to it is mentioned where it applies; `needed_imports_not_reported` says that it is not reported.
-/

namespace CodeSmell

open Syntax

/-- A directive for `path` makes a declaration available that stands in the given namespaces and
types: a type at the top of the namespace, an extension method in the namespace, and a member or a
type directly in the type of that full name. -/
inductive Introduction.FoundThrough (path : String) (i : Introduction)
    (namespaces types : List String) : Prop
  | topType (kind : i.kind.isType = true) (outside : types = [])
      (within : dotJoin namespaces = some path)
  | extensionMethod (kind : i.kind = .method) (receiver : i.owner.isExtensionMethod = true)
      (within : dotJoin namespaces = some path)
  | member (kind : i.kind ∈ [.method, .property, .event, .enumMember, .field, .constant] ∨
        i.kind.isType = true)
      (inside : types ≠ []) (within : dotJoin (namespaces ++ types) = some path)

/-- A tree makes a name available to a directive for `path` : the namespaces around the place that
declares it are those that the file has given itself before and those of the blocks around. -/
def Syntax.Node.Offers (root : Node) (path name : String) : Prop :=
  ∃ before v after, root.visible = before ++ v :: after ∧
    ∃ i ∈ v.node.introduced v.ancestors, symbolName i.name = name ∧
      i.FoundThrough path (Findings.fileNames before ++ blockNames v.ancestors)
        (typeNames v.ancestors)

/-! ## What the index has -/

/-- The scopes that a declaration other than a namespace belongs to. -/
theorem Declaration.mem_scopeEntries {d : Declaration} (h : d.kind ≠ .namespaceName)
    {scope : String} :
    (scope, d.symbol) ∈ d.scopeEntries ↔
      (∃ container, d.container = some container ∧
          (d.kind.isMember = true ∨ d.kind.isType = true) ∧
          scope = dotted d.inNamespace container) ∨
        (d.container = none ∧ d.kind.isType = true ∧ d.inNamespace = some scope) ∨
        (d.isExtension = true ∧ d.inNamespace = some scope) := by
  have hkind : (d.kind == .namespaceName) = false := beq_false_of_ne h
  rw [scopeEntries, hkind]
  cases d.container with
  | none =>
    by_cases htype : d.kind.isType = true <;> by_cases hext : d.isExtension = true <;>
      simp [htype, hext]
  | some container =>
    by_cases htype : d.kind.isType = true <;> by_cases hmember : d.kind.isMember = true <;>
      by_cases hext : d.isExtension = true <;> simp [htype, hmember, hext]

/-- What a directive makes available is in the index under its path. -/
theorem Introduction.FoundThrough.mem_scopeEntries {path : String} {i : Introduction}
    {namespaces types : List String} (h : i.FoundThrough path namespaces types) :
    (path, symbolName i.name) ∈
      (i.declaration ⟨dotJoin namespaces, dotJoin types⟩).scopeEntries := by
  -- the kinds that count are those of members and types, and so not that of a namespace
  have hmember : i.kind ∈ [DeclarationKind.method, .property, .event, .enumMember, .field,
      .constant] → i.kind.isMember = true := by
    generalize i.kind = kind
    revert kind
    decide
  have hkind : i.kind.isMember = true ∨ i.kind.isType = true → i.kind ≠ .namespaceName := by
    intro hcounts hnamespace
    rw [hnamespace] at hcounts
    revert hcounts
    decide
  cases h with
  | topType htype outside within =>
    rw [outside]
    exact (Declaration.mem_scopeEntries (hkind (.inr htype))).mpr
      (.inr (.inl ⟨rfl, htype, within⟩))
  | extensionMethod hmethod receiver within =>
    have hcounts : i.kind.isMember = true := by rw [hmethod]; rfl
    refine (Declaration.mem_scopeEntries (hkind (.inl hcounts))).mpr (.inr (.inr ⟨?_, within⟩))
    rw [Introduction.declaration, receiver, hmethod]
    rfl
  | member hcounts inside within =>
    have hcounts := hcounts.imp_left hmember
    have hjoin : dotJoin types = some (".".intercalate types) := if_neg (by simpa using inside)
    refine (Declaration.mem_scopeEntries (hkind hcounts)).mpr (.inl ⟨_, hjoin, hcounts, ?_⟩)
    rw [dotJoin_append namespaces inside] at within
    exact (Option.some.inj within).symm

/-- What a file offers is in the index. -/
theorem Syntax.Node.Offers.mem_scopeEntries {root : Node} {path name : String}
    (h : root.Offers path name) (hout : root.FileNamespacesOutside) :
    ∃ d ∈ (Findings.walk root).declarations.toList, (path, name) ∈ d.scopeEntries := by
  obtain ⟨before, v, after, hvisible, i, hi, rfl, hfound⟩ := h
  refine ⟨_, ?_, hfound.mem_scopeEntries⟩
  rw [Findings.walk_declarations hout, hvisible, Findings.declarationsFrom_append,
    Findings.declarationsFrom, List.nil_append]
  refine List.mem_append_right _ (List.mem_append_left _ (List.mem_append_left _ ?_))
  exact List.mem_map_of_mem hi

theorem Project.declaredIn?_of_mem_scopeEntries {p : Project} {scope name : String}
    (h : (scope, name) ∈ p.scopeEntries) :
    ∃ names, p.declaredIn? scope = some names ∧ name ∈ names := by
  have hmem : (scope, name) ∈ p.scopeEntries.filter (·.1 == scope) :=
    List.mem_filter.mpr ⟨h, beq_self_eq_true scope⟩
  unfold declaredIn?
  split
  · next hnone => rw [hnone] at hmem; exact absurd hmem List.not_mem_nil
  · exact ⟨_, rfl, List.mem_map_of_mem hmem⟩

/-! ## What is not reported -/

/-- A directive is needed if a name that the project has in its namespace or type is mentioned. -/
theorem importIsUsed_of_mem_scopeEntries {p : Project} {o : DeadCodeOptions} {usage : Usage}
    {u : UsingDirective} {name : String} (halias : u.aliasName = none)
    (hentry : (u.path, name) ∈ p.scopeEntries) (hname : name ∈ usage.names) :
    importIsUsed p o usage u = true := by
  obtain ⟨names, hnames, hmem⟩ := Project.declaredIn?_of_mem_scopeEntries hentry
  have hprovided : names ∈ providedBy p o u.path := by
    unfold providedBy
    rw [hnames]
    exact List.mem_append_left _ (List.mem_append_left _ (List.mem_singleton_self names))
  have hany : ((providedBy p o u.path).any fun names => names.any usage.names.contains) = true :=
    List.any_eq_true.mpr
      ⟨names, hprovided, List.any_eq_true.mpr ⟨name, hmem, List.contains_iff_mem.mpr hname⟩⟩
  rw [importIsUsed, halias]
  dsimp only
  rw [hany, Bool.or_true, ite_self]

/-- A directive in a file of a project, not for an alias, is needed if some file that is analyzed
offers it a name that is mentioned where it applies. -/
structure IsNeeded (grammar : Grammar) (files : List InputFile) (file : InputFile)
    (u : UsingDirective) : Prop where
  no_alias : u.aliasName = none
  mentioned : ∃ declaring ∈ files, isAnalyzed grammar declaring = true ∧
    ∃ name, (grammar declaring.2).root.Offers u.path name ∧
      (name ∈ (factsIn grammar file).referenced ∨
        u.isGlobal = true ∧ ∃ other ∈ files, isAnalyzed grammar other = true ∧
          name ∈ (factsIn grammar other).referenced)

/-- **Directives for code of the project are not reported when they are needed.** Order aside, the
findings about directives are one for each condemned directive of each file that is analyzed, and
no directive is both condemned and needed. -/
theorem needed_imports_not_reported (grammar : Grammar) (files : List InputFile)
    (o : DeadCodeOptions)
    (h : ∀ file ∈ files, isAnalyzed grammar file = true →
      (grammar file.2).root.FileNamespacesOutside) :
    (((Project.ofFiles grammar files).deadCode o).filter (·.kind == .unusedImport)).Perm
        ((files.filter (isAnalyzed grammar)).flatMap fun file =>
          ((factsIn grammar file).condemnedImports (Project.ofFiles grammar files) o).map
            (·.finding file.1)) ∧
      ∀ file ∈ files, isAnalyzed grammar file = true → ∀ u ∈ (factsIn grammar file).usings,
        IsNeeded grammar files file u →
          u ∉ (factsIn grammar file).condemnedImports (Project.ofFiles grammar files) o := by
  constructor
  · rw [Project.deadCode, List.filter_flatMap, Project.ofFiles_files, List.flatMap_map]
    exact List.Perm.flatMap_left _ fun file _ => Facts.deadCode_imports _ _ _
  · intro file hfile hanalyzed u _ hneeded hcondemned
    obtain ⟨declaring, hdeclaring, hdeclaringAnalyzed, name, hoffers, hmentioned⟩ :=
      hneeded.mentioned
    obtain ⟨d, hd, hentry⟩ := hoffers.mem_scopeEntries (h declaring hdeclaring hdeclaringAnalyzed)
    have hindex : (u.path, name) ∈ (Project.ofFiles grammar files).scopeEntries := by
      rw [Project.scopeEntries, Project.ofFiles_files, List.flatMap_map, List.mem_flatMap]
      exact ⟨declaring, List.mem_filter.mpr ⟨hdeclaring, hdeclaringAnalyzed⟩,
        List.mem_flatMap.mpr ⟨d, hd, hentry⟩⟩
    have husage : name ∈
        (usageOf (Project.ofFiles grammar files) (factsIn grammar file) u).names := by
      rw [usageOf]
      split
      · exact Project.mem_ofFiles_referenced.mpr
          (hmentioned.elim (fun hown => ⟨file, hfile, hanalyzed, hown⟩) (·.2))
      · next hlocal => exact hmentioned.resolve_right fun hglobal => hlocal hglobal.1
    have hkept := (List.mem_filter.mp hcondemned).2
    rw [importIsUsed_of_mem_scopeEntries hneeded.no_alias hindex husage] at hkept
    cases hkept

/-- The directive of the one file is needed for the class in the other. -/
theorem smallProject_needs_import :
    (∀ file ∈ smallProject, isAnalyzed smallGrammar file = true →
        (smallGrammar file.2).root.FileNamespacesOutside) ∧
      IsNeeded smallGrammar smallProject ("Use.cs", Node.importing.text)
        ⟨"N.M", none, false, false, ⟨0, 1⟩⟩ ∧
      ⟨"N.M", none, false, false, ⟨0, 1⟩⟩ ∉
        (factsIn smallGrammar ("Use.cs", Node.importing.text)).condemnedImports
          (Project.ofFiles smallGrammar smallProject) {} := by
  have hout : ∀ file ∈ smallProject, isAnalyzed smallGrammar file = true →
      (smallGrammar file.2).root.FileNamespacesOutside := by decide
  have hoffers : Node.declaring.Offers "N.M" "A" := by
    refine ⟨Node.declaring.visible.take 9, Node.declaring.visible.get ⟨9, by decide⟩,
      Node.declaring.visible.drop 10, ?_, ?_⟩
    · rw [List.get_eq_getElem, ← List.drop_eq_getElem_cons, List.take_append_drop]
    · exact ⟨_, List.head_mem (by decide), by decide, .topType (by decide) (by decide) (by decide)⟩
  have hneeded : IsNeeded smallGrammar smallProject ("Use.cs", Node.importing.text)
      ⟨"N.M", none, false, false, ⟨0, 1⟩⟩ :=
    ⟨rfl, ("Shapes.cs", Node.declaring.text), by decide, by decide, "A", hoffers,
      .inl (by decide)⟩
  obtain ⟨-, hkept⟩ := needed_imports_not_reported smallGrammar smallProject {} hout
  exact ⟨hout, hneeded, hkept _ (by decide) (by decide) _ (by decide) hneeded⟩

end CodeSmell
