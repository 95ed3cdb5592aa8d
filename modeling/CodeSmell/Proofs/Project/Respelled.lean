import CodeSmell.Check.LongMethod
import CodeSmell.Check.MagicNumber
import CodeSmell.Proofs.Facts.NamespaceForms
import CodeSmell.Proofs.Project.Verdicts
import Mathlib.Data.List.Forall2

/-!
# Files with their namespaces spelled in the other way

* `Facts.Agree` : two files say the same, whether or not all of them fits the grammar;
* `NamespaceForms.agree` : so it is with the two forms of a namespace;
* `Facts.Agree.deadCode_eq`, `namingViolations_eq`, `magicNumbers_eq`, `longMethods_eq` : the checks
  look at nothing else;
* `Respelled` : a file, and the same or one with its namespace in the other form;
* `respelled_projects_agree` : projects of such files have the same scopes and the same findings.
-/

namespace CodeSmell

open Syntax

/-- Two files say the same, in the same order. -/
structure Facts.Agree (f g : Facts) : Prop where
  path : f.path = g.path
  declarations : f.declarations = g.declarations
  literals : f.literals = g.literals
  usings : f.usings = g.usings
  references : f.references = g.references
  usesQuery : f.usesQuery = g.usesQuery

namespace Facts.Agree

theorem refl (f : Facts) : f.Agree f :=
  ⟨rfl, rfl, rfl, rfl, rfl, rfl⟩

theorem symm {f g : Facts} (h : f.Agree g) : g.Agree f :=
  ⟨h.path.symm, h.declarations.symm, h.literals.symm, h.usings.symm, h.references.symm,
    h.usesQuery.symm⟩

end Facts.Agree

/-- **The two forms of a namespace say the same.** -/
theorem NamespaceForms.agree {file block : Node} (forms : NamespaceForms file block) (path : String)
    (hasError hasError' : Bool) :
    (Facts.ofTree path ⟨file, hasError⟩).Agree (Facts.ofTree path ⟨block, hasError'⟩) := by
  unfold Facts.ofTree
  rw [forms.walk_forms]
  exact ⟨rfl, rfl, rfl, rfl, rfl, rfl⟩

/-! ## What the checks look at -/

namespace Facts.Agree

variable {f g : Facts} (h : f.Agree g)
include h

theorem namingViolations_eq : f.namingViolations = g.namingViolations := by
  unfold Facts.namingViolations
  rw [h.declarations, h.path]

theorem magicNumbers_eq : f.magicNumbers = g.magicNumbers := by
  unfold Facts.magicNumbers
  rw [h.literals, h.path]

theorem longMethods_eq (threshold : Nat) : f.longMethods threshold = g.longMethods threshold := by
  unfold Facts.longMethods Facts.callables
  rw [h.declarations, h.path]

theorem referenced_eq : f.referenced = g.referenced := by
  unfold Facts.referenced
  rw [h.references]

/-- Of the project, a file's dead code depends on what is declared, what is mentioned, and whether
there is a query expression. -/
theorem deadCode_eq {p q : Project} (hdeclared : ∀ scope, p.declaredIn? scope = q.declaredIn? scope)
    (hreferenced : p.referenced = q.referenced) (hquery : p.usesQuery = q.usesQuery)
    (o : DeadCodeOptions) : f.deadCode p o = g.deadCode q o := by
  have husage : ∀ u, usageOf p f u = usageOf q g u := by
    intro u
    unfold usageOf
    rw [hreferenced, hquery, h.referenced_eq, h.usesQuery]
  have himport : ∀ usage u, importIsUsed p o usage u = importIsUsed q o usage u := by
    intro usage u
    unfold importIsUsed providedBy
    rw [hdeclared]
  have hhosts : ∀ d, f.hostsExtensions d = g.hostsExtensions d := by
    intro d
    unfold Facts.hostsExtensions Facts.extensionHosts
    rw [h.declarations]
  unfold Facts.deadCode Facts.unusedImports Facts.unreferenced
  simp only [husage, himport, hhosts, hreferenced, h.usings, h.declarations, h.path]

end Facts.Agree

/-! ## Projects of files that agree -/

/-- What is read off each of some files is what is read off those that correspond to them. -/
theorem flatMap_eq_of_forall₂ {α : Type} {R : Facts → Facts → Prop} {read read' : Facts → List α}
    (hread : ∀ f g : Facts, R f g → read f = read' g) {fs gs : List Facts}
    (h : List.Forall₂ R fs gs) : fs.flatMap read = gs.flatMap read' := by
  induction h with
  | nil => rfl
  | cons hfg _ ih => rw [List.flatMap_cons, List.flatMap_cons, hread _ _ hfg, ih]

/-- What holds of one of some files holds of one of those that correspond to them. -/
theorem exists_mem_iff_of_forall₂ {R : Facts → Facts → Prop} {P Q : Facts → Prop}
    (hPQ : ∀ f g : Facts, R f g → (P f ↔ Q g)) {fs gs : List Facts} (h : List.Forall₂ R fs gs) :
    (∃ f ∈ fs, P f) ↔ ∃ g ∈ gs, Q g := by
  induction h with
  | nil => simp
  | cons hfg _ ih => simp only [List.exists_mem_cons_iff, hPQ _ _ hfg, ih]

namespace Project

/-- The files that are analyzed of two lists correspond to each other as the lists do. -/
theorem ofFiles_forall₂ {grammar : Grammar} {R : InputFile → InputFile → Prop}
    {S : Facts → Facts → Prop}
    (hanalyzed : ∀ file file', R file file' → isAnalyzed grammar file = isAnalyzed grammar file')
    (hfacts : ∀ file file', R file file' → S (factsIn grammar file) (factsIn grammar file'))
    {files files' : List InputFile} (h : List.Forall₂ R files files') :
    List.Forall₂ S (ofFiles grammar files).files (ofFiles grammar files').files := by
  rw [ofFiles_files, ofFiles_files]
  induction h with
  | nil => exact .nil
  | @cons file file' rest rest' hfile _ ih =>
    have hsame := hanalyzed file file' hfile
    by_cases hfirst : isAnalyzed grammar file = true
    · rw [List.filter_cons_of_pos hfirst, List.filter_cons_of_pos (hsame ▸ hfirst)]
      exact .cons (hfacts file file' hfile) ih
    · rw [List.filter_cons_of_neg hfirst, List.filter_cons_of_neg (hsame ▸ hfirst)]
      exact ih

/-- Files that correspond to each other have query expressions in both projects or in none. -/
theorem usesQuery_eq_of_forall₂ {p q : Project} {R : Facts → Facts → Prop}
    (hquery : ∀ f g : Facts, R f g → f.usesQuery = g.usesQuery) (h : List.Forall₂ R p.files q.files) :
    p.usesQuery = q.usesQuery := by
  rw [usesQuery, usesQuery, Bool.eq_iff_iff, List.any_eq_true, List.any_eq_true]
  exact exists_mem_iff_of_forall₂ (fun f g hfg => by rw [hquery f g hfg]) h

variable {p q : Project} (h : List.Forall₂ Facts.Agree p.files q.files)
include h

theorem scopeEntries_eq_of_agree : p.scopeEntries = q.scopeEntries := by
  apply flatMap_eq_of_forall₂ _ h
  intro f g hfg
  rw [hfg.declarations]

theorem declaredIn?_eq_of_agree (scope : String) : p.declaredIn? scope = q.declaredIn? scope := by
  unfold declaredIn?
  rw [scopeEntries_eq_of_agree h]

theorem referenced_eq_of_agree : p.referenced = q.referenced :=
  flatMap_eq_of_forall₂ (fun _ _ hfg => hfg.referenced_eq) h

theorem usesQuery_eq_of_agree : p.usesQuery = q.usesQuery :=
  usesQuery_eq_of_forall₂ (fun _ _ hfg => hfg.usesQuery) h

theorem deadCode_eq_of_agree (o : DeadCodeOptions) : p.deadCode o = q.deadCode o := by
  apply flatMap_eq_of_forall₂ _ h
  intro f g hfg
  exact hfg.deadCode_eq (declaredIn?_eq_of_agree h) (referenced_eq_of_agree h)
    (usesQuery_eq_of_agree h) o

end Project

/-! ## Respelled files -/

/-- A file, and the same or one with its namespace in the other form. -/
inductive Respelled (grammar : Grammar) : InputFile → InputFile → Prop where
  | same (file : InputFile) : Respelled grammar file file
  | toBody (path : String) {text text' : String}
      (forms : NamespaceForms (grammar text).root (grammar text').root) :
      Respelled grammar (path, text) (path, text')
  | fromBody (path : String) {text text' : String}
      (forms : NamespaceForms (grammar text').root (grammar text).root) :
      Respelled grammar (path, text) (path, text')

theorem NamespaceForms.isAnalyzed_eq {grammar : Grammar} {text text' : String}
    (forms : NamespaceForms (grammar text).root (grammar text').root) (path : String) :
    isAnalyzed grammar (path, text) = isAnalyzed grammar (path, text') := by
  unfold isAnalyzed Tree.isUnrecognizable
  rw [forms.file_kind, forms.block_kind]

namespace Respelled

variable {grammar : Grammar} {file file' : InputFile}

theorem isAnalyzed_eq (h : Respelled grammar file file') :
    isAnalyzed grammar file = isAnalyzed grammar file' := by
  cases h with
  | same => rfl
  | toBody path forms => exact forms.isAnalyzed_eq path
  | fromBody path forms => exact (forms.isAnalyzed_eq path).symm

theorem agree (h : Respelled grammar file file') :
    (factsIn grammar file).Agree (factsIn grammar file') := by
  cases h with
  | same => exact .refl _
  | toBody path forms => exact forms.agree path _ _
  | fromBody path forms => exact (forms.agree path _ _).symm

/-- The checks of single files find the same in a respelled file. -/
theorem findings_eq (h : Respelled grammar file file') :
    (Source.read grammar file.1 file.2).namingViolations =
        (Source.read grammar file'.1 file'.2).namingViolations ∧
      (Source.read grammar file.1 file.2).magicNumbers =
        (Source.read grammar file'.1 file'.2).magicNumbers ∧
      ∀ threshold, (Source.read grammar file.1 file.2).longMethods threshold =
        (Source.read grammar file'.1 file'.2).longMethods threshold := by
  unfold Source.namingViolations Source.magicNumbers Source.longMethods
  rw [read_facts, read_facts, h.isAnalyzed_eq]
  split
  · simp [h.agree.namingViolations_eq, h.agree.magicNumbers_eq, h.agree.longMethods_eq]
  · simp

/-- Projects of respelled files are projects of files that agree. -/
theorem files_agree {files files' : List InputFile}
    (h : List.Forall₂ (Respelled grammar) files files') :
    List.Forall₂ Facts.Agree (Project.ofFiles grammar files).files
      (Project.ofFiles grammar files').files :=
  Project.ofFiles_forall₂ (fun _ _ hfile => hfile.isAnalyzed_eq) (fun _ _ hfile => hfile.agree) h

end Respelled

/-- **Both spellings of a namespace mean the same.** A file with a namespace for the rest of it and
one with the same in the body of the namespace say the same: the same declarations, literals,
directives and references, in the same order. Projects of such files, whichever of them are spelled
which way, have the same scopes and the same findings. -/
theorem respelled_projects_agree :
    (∀ {file block : Node}, NamespaceForms file block →
      ∀ (path : String) (hasError hasError' : Bool),
      (Facts.ofTree path ⟨file, hasError⟩).Agree (Facts.ofTree path ⟨block, hasError'⟩)) ∧
    ∀ (grammar : Grammar) {files files' : List InputFile},
      List.Forall₂ (Respelled grammar) files files' →
      (Project.ofFiles grammar files).scopeEntries = (Project.ofFiles grammar files').scopeEntries ∧
      (∀ scope, (Project.ofFiles grammar files).declaredIn? scope =
        (Project.ofFiles grammar files').declaredIn? scope) ∧
      (∀ o, (Project.ofFiles grammar files).deadCode o =
        (Project.ofFiles grammar files').deadCode o) ∧
      List.Forall₂ (fun file file' =>
        (Source.read grammar file.1 file.2).namingViolations =
            (Source.read grammar file'.1 file'.2).namingViolations ∧
          (Source.read grammar file.1 file.2).magicNumbers =
            (Source.read grammar file'.1 file'.2).magicNumbers ∧
          ∀ threshold, (Source.read grammar file.1 file.2).longMethods threshold =
            (Source.read grammar file'.1 file'.2).longMethods threshold) files files' := by
  constructor
  · intro file block forms path hasError hasError'
    exact forms.agree path hasError hasError'
  · intro grammar files files' h
    have hfiles := Respelled.files_agree h
    refine ⟨Project.scopeEntries_eq_of_agree hfiles, Project.declaredIn?_eq_of_agree hfiles,
      Project.deadCode_eq_of_agree hfiles, ?_⟩
    exact h.imp fun _ _ hfile => hfile.findings_eq

/-! ## A file in both spellings -/

namespace Syntax.Node

/-- The keyword and the name of a namespace `N`. -/
def headingOfN : List Node :=
  [token 0 "namespace", word (some "name") 10 "N"]

/-- A class `A` with a field `A b;`. -/
def classInN : Node :=
  phrase "class_declaration" none
    [token 13 "class", word (some "name") 19 "A", body 21 [fieldOfA 23 "b"] 28]

/-- A file with the namespace for the rest of it. -/
def flatN : Node :=
  phrase "compilation_unit" none
    [phrase "file_scoped_namespace_declaration" none (headingOfN ++ [token 11 ";"]), classInN]

/-- A file with the class in the body of the namespace. -/
def nestedN : Node :=
  phrase "compilation_unit" none
    [phrase "namespace_declaration" none (headingOfN ++ [body 11 [classInN] 30])]

/-- The two forms of the namespace `N`. -/
def formsOfN : NamespaceForms flatN nestedN where
  before := []
  heading := headingOfN
  members := [classInN]
  directive := phrase "file_scoped_namespace_declaration" none (headingOfN ++ [token 11 ";"])
  declaration := phrase "namespace_declaration" none (headingOfN ++ [body 11 [classInN] 30])
  body := body 11 [classInN] 30
  semicolon := [token 11 ";"]
  opening := [token 11 "\x7b"]
  closing := [token 30 "\x7d"]
  trailing := []
  items := by
    have hitems : ∀ n ∈ [] ++ headingOfN ++ [classInN],
        (∀ v ∈ n.places, v.node.construct ≠ .fileNamespace) ∧ n.construct ≠ .accessor := by decide
    exact fun n hn => ⟨(hitems n hn).1, (hitems n hn).2⟩
  marks := by
    intro n hn
    have hcases : n = token 11 ";" ∨ n = token 11 "\x7b" ∨ n = token 30 "\x7d" := by simpa using hn
    rcases hcases with rfl | rfl | rfl <;> exact ⟨rfl, rfl, rfl⟩
  no_field := by decide
  file_kind := rfl
  file_children := rfl
  directive_kind := rfl
  directive_children := rfl
  block_kind := rfl
  block_children := rfl
  declaration_kind := rfl
  declaration_children := rfl
  body_kind := rfl
  body_field := rfl
  body_children := rfl

end Syntax.Node

def grammarOfN : Grammar := fun text =>
  ⟨if text == Node.flatN.text then Node.flatN else Node.nestedN, false⟩

theorem grammarOfN_scopes_agree :
    (Project.ofFiles grammarOfN [("A.cs", Node.flatN.text)]).scopeEntries =
        [("N", "A"), ("N.A", "b")] ∧
      (Project.ofFiles grammarOfN [("A.cs", Node.nestedN.text)]).scopeEntries =
        [("N", "A"), ("N.A", "b")] := by
  have hflat : (grammarOfN Node.flatN.text).root = Node.flatN := by
    unfold grammarOfN
    rw [if_pos (beq_self_eq_true Node.flatN.text)]
  have hnested : (grammarOfN Node.nestedN.text).root = Node.nestedN := by
    have hother : ¬ (Node.nestedN.text == Node.flatN.text) = true := by decide
    unfold grammarOfN
    rw [if_neg hother]
  have hforms : NamespaceForms (grammarOfN Node.flatN.text).root
      (grammarOfN Node.nestedN.text).root := by
    rw [hflat, hnested]
    exact Node.formsOfN
  have hscopes := (respelled_projects_agree.2 grammarOfN
    (.cons (Respelled.toBody "A.cs" hforms) .nil)).1
  have hentries : (Project.ofFiles grammarOfN [("A.cs", Node.flatN.text)]).scopeEntries =
      [("N", "A"), ("N.A", "b")] := by decide
  exact ⟨hentries, hscopes.symm.trans hentries⟩

end CodeSmell
