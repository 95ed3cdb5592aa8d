import CodeSmell.Proofs.Facts.SingleNames
import CodeSmell.Proofs.Project.Scopes

/-!
# The namespaces of a project

* `Project.DeclaresSpace`, `Project.HasSpace` : a namespace is declared by its full name, or is there
  because one inside it is; `declares_iff` says which of them the index has in a scope;
* `Project.Complete` : a project declares in a scope all namespaces that it has there. It does so in each
  scope if whatever is around a namespace is declared as well (`complete_of_parentsDeclared`), as it is
  where all namespaces have names without dots (`parentsDeclared_of_singleNames`);
* `intercalate_take_succ`, `Project.hasSpace_take` : the first parts of a dotted name.
-/

namespace CodeSmell

open Syntax

/-! ## Namespaces of a file -/

namespace Facts

def DeclaresSpace (f : Facts) (full : String) : Prop :=
  ∃ d ∈ f.declarations, d.kind = .namespaceName ∧ d.name = full

instance (f : Facts) (full : String) : Decidable (f.DeclaresSpace full) :=
  inferInstanceAs (Decidable (∃ d ∈ f.declarations, _))

/-- A file declares a namespace with this full name, or one inside it. -/
def HasSpace (f : Facts) (full : String) : Prop :=
  f.DeclaresSpace full ∨ ∃ rest, f.DeclaresSpace (full ++ "." ++ rest)

end Facts

/-! ## Namespaces of a project -/

namespace Project

def DeclaresSpace (p : Project) (full : String) : Prop :=
  ∃ f ∈ p.files, f.DeclaresSpace full

instance (p : Project) (full : String) : Decidable (p.DeclaresSpace full) :=
  inferInstanceAs (Decidable (∃ f ∈ p.files, _))

def HasSpace (p : Project) (full : String) : Prop :=
  ∃ f ∈ p.files, f.HasSpace full

/-- A project declares something else than a namespace directly in a scope. -/
def DeclaresOther (p : Project) (scope name : String) : Prop :=
  ∃ f ∈ p.files, ∃ d ∈ f.declarations, d.kind ≠ .namespaceName ∧ d.DirectlyIn scope name

/-- A project declares in a scope all namespaces that it has there. -/
def Complete (p : Project) (scope : String) : Prop :=
  ∀ name, '.' ∉ name.toList → p.HasSpace (scope ++ "." ++ name) → p.Declares scope name

variable {p q : Project} {scope name : String}

theorem HasSpace.cases {full : String} (h : p.HasSpace full) :
    p.DeclaresSpace full ∨ ∃ rest, p.DeclaresSpace (full ++ "." ++ rest) := by
  obtain ⟨f, hf, hdeclared | ⟨rest, hinside⟩⟩ := h
  · exact .inl ⟨f, hf, hdeclared⟩
  · exact .inr ⟨rest, f, hf, hinside⟩

theorem DeclaresSpace.hasSpace {full : String} (h : p.DeclaresSpace full) : p.HasSpace full := by
  obtain ⟨f, hf, hdeclared⟩ := h
  exact ⟨f, hf, .inl hdeclared⟩

/-- A project declares in a scope the namespaces that it declares by their full names, and what else
stands there. -/
theorem declares_iff : p.Declares scope name ↔
    ('.' ∉ name.toList ∧ p.DeclaresSpace (scope ++ "." ++ name)) ∨ p.DeclaresOther scope name := by
  constructor
  · rintro ⟨f, hf, d, hd, hin⟩
    by_cases hkind : d.kind = .namespaceName
    · cases hin with
      | subspace _ full simple => exact .inl ⟨simple, f, hf, d, hd, hkind, full⟩
      | member kind => rw [hkind] at kind; exact absurd kind (by decide)
      | topType kind => rw [hkind] at kind; exact absurd kind (by decide)
      | extensionMethod kind => exact absurd hkind kind
    · exact .inr ⟨f, hf, d, hd, hkind, hin⟩
  · rintro (⟨hsimple, f, hf, d, hd, hkind, hfull⟩ | ⟨f, hf, d, hd, -, hin⟩)
    · exact ⟨f, hf, d, hd, .subspace hkind hfull hsimple⟩
    · exact ⟨f, hf, d, hd, hin⟩

theorem Complete.declares_iff (h : p.Complete scope) : p.Declares scope name ↔
    ('.' ∉ name.toList ∧ p.HasSpace (scope ++ "." ++ name)) ∨ p.DeclaresOther scope name := by
  constructor
  · intro hdeclares
    exact (Project.declares_iff.mp hdeclares).imp_left fun ⟨hsimple, hspace⟩ =>
      ⟨hsimple, hspace.hasSpace⟩
  · rintro (⟨hsimple, hspace⟩ | hother)
    · exact h name hsimple hspace
    · exact Project.declares_iff.mpr (.inr hother)

/-! ## Projects that declare what is around their namespaces -/

/-- Whatever is around a namespace of a project is declared as well, unless it has a name without
dots. -/
def ParentsDeclared (p : Project) : Prop :=
  ∀ f ∈ p.files, ∀ d ∈ f.declarations, d.kind = .namespaceName →
    ∀ parent ∈ (splitLastDot? d.name).toList.map (·.1),
      (splitLastDot? parent).isSome = true → p.DeclaresSpace parent

instance (p : Project) : Decidable p.ParentsDeclared :=
  inferInstanceAs (Decidable (∀ f ∈ p.files, _))

/-- Where what is around namespaces is declared, it is so all the way out. -/
theorem declaresSpace_of_inside (h : p.ParentsDeclared) {full : String}
    (hdotted : (splitLastDot? full).isSome = true) (rest : String)
    (hinside : p.DeclaresSpace (full ++ "." ++ rest)) : p.DeclaresSpace full := by
  induction hlength : rest.length using Nat.strong_induction_on generalizing rest with
  | _ length ih =>
    obtain ⟨f, hf, d, hd, hkind, hname⟩ := hinside
    have hparent {before behind : String} (hsplit : splitLastDot? (full ++ "." ++ rest) =
        some (before, behind)) (hdot : (splitLastDot? before).isSome = true) :
        p.DeclaresSpace before := by
      refine h f hf d hd hkind before ?_ hdot
      rw [hname, hsplit]
      exact List.mem_singleton_self before
    -- the name around has one dot less in the rest
    cases hrest : splitLastDot? rest with
    | none =>
      have hsimple : '.' ∉ rest.toList := by
        rw [← isSome_splitLastDot?_iff, hrest]
        exact nofun
      exact hparent (splitLastDot?_eq_some_iff.mpr ⟨rfl, hsimple⟩) hdotted
    | some parts =>
      obtain ⟨before, behind⟩ := parts
      obtain ⟨rfl, hsimple⟩ := splitLastDot?_eq_some_iff.mp hrest
      have hsplit : splitLastDot? (full ++ "." ++ (before ++ "." ++ behind)) =
          some (full ++ "." ++ before, behind) := by
        refine splitLastDot?_eq_some_iff.mpr ⟨?_, hsimple⟩
        simp only [String.append_assoc]
      have hdot : (splitLastDot? (full ++ "." ++ before)).isSome = true := by
        rw [isSome_splitLastDot?_iff]
        simp
      refine ih before.length ?_ before (hparent hsplit hdot) rfl
      rw [← hlength, String.length_append, String.length_append]
      have hone : ".".length = 1 := rfl
      omega

/-- Where what is around namespaces is declared, each scope has all of its namespaces. -/
theorem complete_of_parentsDeclared (h : p.ParentsDeclared) (scope : String) :
    p.Complete scope := by
  intro name hsimple hspace
  refine declares_iff.mpr (.inl ⟨hsimple, ?_⟩)
  have hdotted : (splitLastDot? (scope ++ "." ++ name)).isSome = true := by
    rw [isSome_splitLastDot?_iff]
    simp
  rcases hspace.cases with hdeclared | ⟨rest, hinside⟩
  · exact hdeclared
  · exact declaresSpace_of_inside h hdotted rest hinside

end Project

/-! ## Projects without dots in names -/

/-- A project of files whose namespaces have names without dots declares all that is around them. -/
theorem parentsDeclared_of_singleNames {grammar : Grammar} {files : List InputFile}
    (h : ∀ file ∈ files, isAnalyzed grammar file = true → (grammar file.2).root.SingleNames) :
    (Project.ofFiles grammar files).ParentsDeclared := by
  intro f hf d hd hkind parent hparent _
  obtain ⟨⟨_, name⟩, hsplit, rfl⟩ := List.mem_map.mp hparent
  have hmem := hf
  rw [Project.ofFiles_files] at hmem
  obtain ⟨file, hfile, rfl⟩ := List.mem_map.mp hmem
  obtain ⟨hfile, hanalyzed⟩ := List.mem_filter.mp hfile
  have hground := Findings.walk_grounded (h file hfile hanalyzed)
  exact ⟨_, hf, hground.parents d hd hkind _ name (Option.mem_toList.mp hsplit)⟩

/-! ## The parts of a name -/

/-- The full name of the first parts of a dotted name. -/
theorem intercalate_take_succ {parts : List String} {i : Nat} (hpos : 0 < i) (hi : i < parts.length) :
    ".".intercalate (parts.take (i + 1)) = ".".intercalate (parts.take i) ++ "." ++ parts[i] := by
  have hne : parts.take i ≠ [] := by
    intro hnil
    rcases List.take_eq_nil_iff.mp hnil with hzero | hempty
    · omega
    · rw [hempty] at hi
      exact absurd hi (Nat.not_lt_zero i)
  rw [List.take_succ_eq_append_getElem hi, String.intercalate_append_of_ne_nil hne
    (List.cons_ne_nil _ _), String.intercalate_singleton]

/-- A project that declares a namespace has the ones that its name begins with. -/
theorem Project.hasSpace_take {p : Project} {parts : List String}
    (h : p.DeclaresSpace (".".intercalate parts)) (i : Nat) :
    p.HasSpace (".".intercalate (parts.take (i + 1))) := by
  obtain ⟨f, hf, hdeclared⟩ := h
  refine ⟨f, hf, ?_⟩
  rcases Nat.lt_or_ge (i + 1) parts.length with hinside | hend
  · have htake : parts.take (i + 1) ≠ [] :=
      List.ne_nil_of_length_pos (by rw [List.length_take]; omega)
    have hdrop : parts.drop (i + 1) ≠ [] :=
      List.ne_nil_of_length_pos (by rw [List.length_drop]; omega)
    refine .inr ⟨".".intercalate (parts.drop (i + 1)), ?_⟩
    rwa [← String.intercalate_append_of_ne_nil htake hdrop, List.take_append_drop]
  · rw [List.take_of_length_le hend]
    exact .inl hdeclared

end CodeSmell
