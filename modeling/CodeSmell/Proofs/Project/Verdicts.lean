import CodeSmell.Check.DeadCode
import CodeSmell.Proofs.Syntax.WellFormed
import CodeSmell.Syntax.Record
import Mathlib.Data.List.Perm.Basic

/-!
# Dead code by what it is about

* `Project.ofFiles` : the project of files given by path and text; `ofFiles_files` lists the facts
  of those that are analyzed (`isAnalyzed`);
* `Facts.condemnedImports`, `Facts.condemnedDeclarations` : the directives and the declarations that
  a report of dead code is about;
* `deadCode_imports`, `deadCode_declarations` : the findings of each kind are one for each of these;
* `smallProject` : a project of two small files and one that is not analyzed.
-/

namespace CodeSmell

open Syntax

/-- A file of a project: its path and its text. -/
abbrev InputFile := String × String

/-- Whether a file is of a known language and makes sense. -/
def isAnalyzed (grammar : Grammar) (file : InputFile) : Bool :=
  (Language.ofPath? file.1).isSome && !(grammar file.2).isUnrecognizable

def factsIn (grammar : Grammar) (file : InputFile) : Facts :=
  Facts.ofTree file.1 (grammar file.2)

theorem read_facts (grammar : Grammar) (file : InputFile) :
    (Source.read grammar file.1 file.2).facts =
      if isAnalyzed grammar file then some (factsIn grammar file) else none := by
  unfold Source.read Source.factsOf? isAnalyzed factsIn
  cases Language.ofPath? file.1 with
  | none => rfl
  | some language =>
    cases (grammar file.2).isUnrecognizable with
    | false => rfl
    | true => rfl

namespace Project

def ofFiles (grammar : Grammar) (files : List InputFile) : Project :=
  ofSources (files.map fun file => Source.read grammar file.1 file.2)

theorem ofFiles_files (grammar : Grammar) (files : List InputFile) :
    (ofFiles grammar files).files =
      (files.filter (isAnalyzed grammar)).map (factsIn grammar) := by
  unfold ofFiles ofSources
  induction files with
  | nil => rfl
  | cons file rest ih =>
    simp only [List.map_cons, List.filterMap_cons, read_facts] at ih ⊢
    by_cases h : isAnalyzed grammar file = true
    · rw [if_pos h, List.filter_cons_of_pos h, List.map_cons, ih]
    · rw [if_neg h, List.filter_cons_of_neg h, ih]

theorem mem_ofFiles_referenced {grammar : Grammar} {files : List InputFile} {name : String} :
    name ∈ (ofFiles grammar files).referenced ↔
      ∃ file ∈ files, isAnalyzed grammar file = true ∧
        name ∈ (factsIn grammar file).referenced := by
  unfold referenced
  rw [ofFiles_files, List.flatMap_map]
  simp only [List.mem_flatMap, List.mem_filter, and_assoc]

end Project

/-! ## What is reported -/

def UsingDirective.finding (u : UsingDirective) (file : String) : DeadCode :=
  ⟨.unusedImport, u.displayName, file, u.position.line⟩

def Declaration.finding (d : Declaration) (file : String) : DeadCode :=
  ⟨.unreferencedDeclaration, d.name, file, d.position.line⟩

/-- Of findings that are all of one kind, all or none are of a given kind. -/
theorem filter_kind {findings : List DeadCode} {own : DeadCodeKind}
    (h : ∀ x ∈ findings, x.kind = own) (k : DeadCodeKind) :
    findings.filter (·.kind == k) = if own = k then findings else [] := by
  split
  · next hk =>
    apply List.filter_eq_self.mpr
    intro x hx
    exact beq_iff_eq.mpr ((h x hx).trans hk)
  · next hk =>
    apply List.filter_eq_nil_iff.mpr
    intro x hx hkind
    exact hk ((h x hx).symm.trans (beq_iff_eq.mp hkind))

namespace Facts

/-- The directives of a file that are reported. -/
def condemnedImports (f : Facts) (p : Project) (o : DeadCodeOptions) : List UsingDirective :=
  f.usings.filter fun u => !importIsUsed p o (usageOf p f u) u

def condemnedDeclarations (f : Facts) (p : Project) (o : DeadCodeOptions) : List Declaration :=
  f.declarations.filter fun d =>
    isCandidate o d && !f.hostsExtensions d && !p.referenced.contains d.symbol

variable (f : Facts) (p : Project) (o : DeadCodeOptions)

/-- Sorting aside, a report has the findings about directives and then those about declarations. -/
theorem deadCode_perm :
    (f.deadCode p o).Perm
      ((f.condemnedImports p o).map (·.finding f.path) ++
        (f.condemnedDeclarations p o).map (·.finding f.path)) := by
  unfold deadCode
  refine ((List.mergeSort_perm _ _).map _).trans (List.Perm.of_eq ?_)
  rw [List.map_append]
  unfold unusedImports unreferenced
  rw [List.map_map, List.map_map]
  rfl

theorem kind_of_import :
    ∀ x ∈ (f.condemnedImports p o).map (·.finding f.path), x.kind = .unusedImport :=
  List.forall_mem_map.mpr fun _ _ => rfl

theorem kind_of_declaration :
    ∀ x ∈ (f.condemnedDeclarations p o).map (·.finding f.path),
      x.kind = .unreferencedDeclaration :=
  List.forall_mem_map.mpr fun _ _ => rfl

theorem deadCode_imports :
    ((f.deadCode p o).filter (·.kind == .unusedImport)).Perm
      ((f.condemnedImports p o).map (·.finding f.path)) := by
  refine ((f.deadCode_perm p o).filter _).trans (List.Perm.of_eq ?_)
  rw [List.filter_append, filter_kind (f.kind_of_import p o), filter_kind (f.kind_of_declaration p o),
    if_pos rfl, if_neg nofun, List.append_nil]

theorem deadCode_declarations :
    ((f.deadCode p o).filter (·.kind == .unreferencedDeclaration)).Perm
      ((f.condemnedDeclarations p o).map (·.finding f.path)) := by
  refine ((f.deadCode_perm p o).filter _).trans (List.Perm.of_eq ?_)
  rw [List.filter_append, filter_kind (f.kind_of_import p o), filter_kind (f.kind_of_declaration p o),
    if_neg nofun, if_pos rfl, List.nil_append]

end Facts

/-- What a project's report has about directives are the findings for each file. -/
theorem Project.deadCode_imports (p : Project) (o : DeadCodeOptions) :
    ((p.deadCode o).filter (·.kind == .unusedImport)).Perm
      (p.files.flatMap fun f => (f.condemnedImports p o).map (·.finding f.path)) := by
  rw [Project.deadCode, List.filter_flatMap]
  exact List.Perm.flatMap_left _ fun f _ => f.deadCode_imports p o

/-! ## A small project -/

def smallGrammar : Grammar := fun text =>
  if text = Node.declaring.text then ⟨Node.declaring, false⟩
  else if text = Node.importing.text then ⟨Node.importing, false⟩
  else Tree.unrecognizable

/-- The two small files, and one that is of no known language. -/
def smallProject : List InputFile :=
  [("Shapes.cs", Node.declaring.text), ("Use.cs", Node.importing.text), ("b.txt", "b")]

end CodeSmell
