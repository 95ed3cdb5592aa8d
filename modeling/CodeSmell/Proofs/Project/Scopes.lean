import CodeSmell.Proofs.Project.UsedImports
import CodeSmell.Proofs.Text.LastDot

/-!
# What stands directly in a scope

* `Declaration.DirectlyIn` : a declaration is a direct member of a namespace or type, under a name;
  `mem_scopeEntries_iff_directlyIn` says that the index of a project has just these;
* `Project.Declares` : a project declares a name directly in a scope;
* `Project.mem_declaredIn?_iff`, `declaredIn?_eq_none_iff` : these are the names that the index gives,
  and it gives none of a scope that nothing is declared in.
-/

namespace CodeSmell

namespace Declaration

/-- A declaration is directly in a scope, under the name that a directive for it makes available. -/
inductive DirectlyIn (d : Declaration) (scope name : String) : Prop
  /-- A namespace is in the one that its full name begins with. -/
  | subspace (kind : d.kind = .namespaceName) (full : d.name = scope ++ "." ++ name)
      (simple : '.' ∉ name.toList)
  /-- A member or a type is in the type around it. -/
  | member (kind : d.kind.isMember = true ∨ d.kind.isType = true) (symbol : d.symbol = name)
      (inside : ∃ container, d.container = some container ∧
        dotted d.inNamespace container = scope)
  /-- A type without a type around it is in its namespace. -/
  | topType (kind : d.kind.isType = true) (symbol : d.symbol = name)
      (outside : d.container = none) (within : d.inNamespace = some scope)
  /-- An extension method is also in the namespace of its class. -/
  | extensionMethod (kind : d.kind ≠ .namespaceName) (receiver : d.isExtension = true)
      (symbol : d.symbol = name) (within : d.inNamespace = some scope)

/-- A declaration other than a namespace is in each of its scopes under its symbol. -/
theorem eq_symbol_of_mem_scopeEntries {d : Declaration} (h : d.kind ≠ .namespaceName)
    {entry : String × String} (hentry : entry ∈ d.scopeEntries) : entry.2 = d.symbol := by
  rw [scopeEntries, beq_false_of_ne h] at hentry
  obtain ⟨scope, -, rfl⟩ := List.mem_map.mp hentry
  rfl

/-- The index has a declaration under the scopes that it is directly in, and no others. -/
theorem mem_scopeEntries_iff_directlyIn {d : Declaration} {scope name : String} :
    (scope, name) ∈ d.scopeEntries ↔ d.DirectlyIn scope name := by
  by_cases hkind : d.kind = .namespaceName
  · have hentries : d.scopeEntries = (splitLastDot? d.name).toList := by
      rw [scopeEntries, hkind]
      rfl
    rw [hentries, Option.mem_toList, splitLastDot?_eq_some_iff]
    constructor
    · rintro ⟨hfull, hsimple⟩
      exact .subspace hkind hfull hsimple
    · intro h
      cases h with
      | subspace _ full simple => exact ⟨full, simple⟩
      | member kind => rw [hkind] at kind; exact absurd kind (by decide)
      | topType kind => rw [hkind] at kind; exact absurd kind (by decide)
      | extensionMethod kind => exact absurd hkind kind
  · constructor
    · intro hentry
      obtain rfl : name = d.symbol := eq_symbol_of_mem_scopeEntries hkind hentry
      rcases (mem_scopeEntries hkind).mp hentry with
        ⟨container, hinside, hcounts, rfl⟩ | ⟨houtside, htype, hwithin⟩ | ⟨hreceiver, hwithin⟩
      · exact .member hcounts rfl ⟨container, hinside, rfl⟩
      · exact .topType htype rfl houtside hwithin
      · exact .extensionMethod hkind hreceiver rfl hwithin
    · intro h
      cases h with
      | subspace kind => exact absurd kind hkind
      | member kind symbol inside =>
        obtain ⟨container, hinside, hscope⟩ := inside
        rw [← symbol]
        exact (mem_scopeEntries hkind).mpr (.inl ⟨container, hinside, kind, hscope.symm⟩)
      | topType kind symbol outside within =>
        rw [← symbol]
        exact (mem_scopeEntries hkind).mpr (.inr (.inl ⟨outside, kind, within⟩))
      | extensionMethod _ receiver symbol within =>
        rw [← symbol]
        exact (mem_scopeEntries hkind).mpr (.inr (.inr ⟨receiver, within⟩))

end Declaration

namespace Project

/-- A project declares a name directly in a namespace or type. -/
def Declares (p : Project) (scope name : String) : Prop :=
  ∃ f ∈ p.files, ∃ d ∈ f.declarations, d.DirectlyIn scope name

theorem mem_scopeEntries_iff {p : Project} {scope name : String} :
    (scope, name) ∈ p.scopeEntries ↔ p.Declares scope name := by
  simp only [scopeEntries, List.mem_flatMap, Declares,
    Declaration.mem_scopeEntries_iff_directlyIn]

/-- The names that the index gives of a scope are those that the project declares in it. -/
theorem mem_declaredIn?_iff {p : Project} {scope name : String} :
    (∃ names, p.declaredIn? scope = some names ∧ name ∈ names) ↔ p.Declares scope name := by
  rw [← mem_scopeEntries_iff]
  constructor
  · rintro ⟨names, hnames, hmem⟩
    unfold declaredIn? at hnames
    split at hnames
    · cases hnames
    · cases hnames
      obtain ⟨entry, hentry, rfl⟩ := List.mem_map.mp hmem
      obtain ⟨hentry, hscope⟩ := List.mem_filter.mp hentry
      rw [← eq_of_beq hscope]
      exact hentry
  · exact declaredIn?_of_mem_scopeEntries

/-- The index gives nothing of a scope in which nothing is declared. -/
theorem declaredIn?_eq_none_iff {p : Project} {scope : String} :
    p.declaredIn? scope = none ↔ ∀ name, ¬ p.Declares scope name := by
  constructor
  · intro hnone name hname
    obtain ⟨names, hnames, -⟩ := mem_declaredIn?_iff.mpr hname
    rw [hnone] at hnames
    cases hnames
  · intro h
    unfold declaredIn?
    split
    · rfl
    · next hentries =>
      obtain ⟨entry, hentry⟩ := List.exists_mem_of_ne_nil _ hentries
      obtain ⟨hmem, hscope⟩ := List.mem_filter.mp hentry
      obtain rfl := eq_of_beq hscope
      exact absurd (mem_scopeEntries_iff.mp hmem) (h entry.2)

end Project

end CodeSmell
