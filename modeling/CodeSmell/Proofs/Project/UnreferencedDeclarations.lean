import CodeSmell.Proofs.Facts.References
import CodeSmell.Proofs.Project.Verdicts

/-!
# Declarations that nothing mentions

* `Node.mentions` : whether a symbol occurs in a tree, as an identifier that declares nothing or as
  the class of an attribute; these are the references of the file (`mem_referenced_iff_mentions`);
* `IsDead` : what makes a declaration dead, said of the trees of all files;
* `dead_declarations_reported` : in a project of well-formed trees exactly the dead declarations are
  reported.
-/

namespace CodeSmell

open Syntax

namespace Syntax.Node

/-- Whether a symbol occurs where it refers to something: as a visible identifier that declares
nothing, or as the full name of the class of a visible attribute. -/
def mentions (root : Node) (symbol : String) : Bool :=
  root.visible.any fun v =>
    (v.node.isIdentifier && symbolName v.node.text == symbol && !root.declaresAt v.node.start) ||
      v.node.attributeReference?.any (·.name == symbol)

theorem attributeReference?_of_isIdentifier {n : Node} (h : n.isIdentifier = true) :
    n.attributeReference? = none := by
  rw [attributeReference?, construct_of_isIdentifier h]
  rfl

theorem WellFormed.mem_referenced_iff_mentions {path : String} {tree : Tree}
    (h : tree.root.WellFormed) {symbol : String} :
    symbol ∈ (Facts.ofTree path tree).referenced ↔ tree.root.mentions symbol = true := by
  have hreferences : (Facts.ofTree path tree).references = _ := h.walk_references_eq
  rw [Facts.referenced, hreferences, mentions, List.any_eq_true, List.map_flatMap,
    List.mem_flatMap]
  refine exists_congr fun v => and_congr_right fun _ => ?_
  by_cases hid : v.node.isIdentifier = true
  · rw [if_pos hid, hid, attributeReference?_of_isIdentifier hid]
    cases tree.root.declaresAt v.node.start with
    | true => simp
    | false =>
      simp only [Bool.false_eq_true, if_false, List.map_cons, List.map_nil, List.mem_singleton,
        Bool.true_and, Bool.not_false, Bool.and_true, Option.any_none, Bool.or_false, beq_iff_eq]
      exact eq_comm
  · rw [if_neg hid, Bool.not_eq_true _ |>.mp hid]
    cases v.node.attributeReference? with
    | none => simp
    | some r =>
      simp only [Option.toList_some, List.map_cons, List.map_nil, List.mem_singleton,
        Bool.false_and, Bool.false_or, Option.any_some, beq_iff_eq]
      exact eq_comm

end Syntax.Node

/-! ## The verdict -/

/-- The kinds of declarations that are alive without being mentioned. -/
def exemptKinds : List DeclarationKind :=
  [.namespaceName, .constructor, .destructor, .localFunction, .operator, .accessor, .parameter,
    .localVariable]

/-- A declaration in a file with facts `f` that has to be mentioned somewhere to be alive, and is
not mentioned in any of the files that are analyzed. -/
structure IsDead (grammar : Grammar) (files : List InputFile) (o : DeadCodeOptions) (f : Facts)
    (d : Declaration) : Prop where
  kind_counts : d.kind ∉ exemptKinds
  not_override : d.isOverride = false
  not_discard : ∃ c ∈ d.symbol.toList, c ≠ '_'
  not_entryPoint : d.symbol ∉ o.entryPoints
  /-- It is no type at the top of its namespace that, in this file, holds extension methods. -/
  not_host : ¬ (d.kind.isType = true ∧ d.container = none ∧
    ∃ e ∈ f.declarations, e.isExtension = true ∧ e.container = some d.symbol)
  not_mentioned : ∀ file ∈ files, isAnalyzed grammar file = true →
    (grammar file.2).root.mentions d.symbol = false

instance (grammar : Grammar) (files : List InputFile) (o : DeadCodeOptions) (f : Facts)
    (d : Declaration) : Decidable (IsDead grammar files o f d) :=
  -- the letters of the symbol are looked through, not all the characters there are
  let _ : Decidable (∃ c ∈ d.symbol.toList, c ≠ '_') := List.decidableBEx _ _
  decidable_of_iff
    (d.kind ∉ exemptKinds ∧
      d.isOverride = false ∧ (∃ c ∈ d.symbol.toList, c ≠ '_') ∧ d.symbol ∉ o.entryPoints ∧
      ¬ (d.kind.isType = true ∧ d.container = none ∧
        ∃ e ∈ f.declarations, e.isExtension = true ∧ e.container = some d.symbol) ∧
      ∀ file ∈ files, isAnalyzed grammar file = true →
        (grammar file.2).root.mentions d.symbol = false)
    ⟨fun ⟨h₁, h₂, h₃, h₄, h₅, h₆⟩ => ⟨h₁, h₂, h₃, h₄, h₅, h₆⟩,
      fun ⟨h₁, h₂, h₃, h₄, h₅, h₆⟩ => ⟨h₁, h₂, h₃, h₄, h₅, h₆⟩⟩

theorem DeclarationKind.isExempt_iff (k : DeclarationKind) :
    k.isExempt = true ↔ k ∈ exemptKinds := by
  cases k <;> decide

theorem isDiscard_eq_false_iff (name : String) :
    isDiscard name = false ↔ ∃ c ∈ name.toList, c ≠ '_' := by
  rw [isDiscard, List.all_eq_false]
  simp only [beq_iff_eq, ne_eq]

theorem Facts.hostsExtensions_iff (f : Facts) (d : Declaration) :
    f.hostsExtensions d = true ↔ d.kind.isType = true ∧ d.container = none ∧
      ∃ e ∈ f.declarations, e.isExtension = true ∧ e.container = some d.symbol := by
  simp only [hostsExtensions, extensionHosts, Bool.and_eq_true, Option.isNone_iff_eq_none,
    List.contains_iff_mem, List.mem_filterMap, List.mem_filter, and_assoc]

section Verdict

variable {grammar : Grammar} {files : List InputFile}
  (h : ∀ file ∈ files, isAnalyzed grammar file = true → (grammar file.2).root.WellFormed)
include h

theorem referenced_iff_mentions (symbol : String) :
    symbol ∈ (Project.ofFiles grammar files).referenced ↔
      ∃ file ∈ files, isAnalyzed grammar file = true ∧
        (grammar file.2).root.mentions symbol = true := by
  rw [Project.mem_ofFiles_referenced]
  refine exists_congr fun file => and_congr_right fun hfile => and_congr_right fun hanalyzed => ?_
  exact (h file hfile hanalyzed).mem_referenced_iff_mentions

theorem condemned_iff_isDead (o : DeadCodeOptions) (f : Facts) (d : Declaration) :
    (isCandidate o d && !f.hostsExtensions d &&
        !(Project.ofFiles grammar files).referenced.contains d.symbol) = true ↔
      IsDead grammar files o f d := by
  have hmentioned : (Project.ofFiles grammar files).referenced.contains d.symbol = false ↔
      ∀ file ∈ files, isAnalyzed grammar file = true →
        (grammar file.2).root.mentions d.symbol = false := by
    rw [← Bool.not_eq_true, List.contains_iff_mem, referenced_iff_mentions h]
    simp only [not_exists, not_and, Bool.not_eq_true]
  rw [isCandidate]
  simp only [Bool.and_eq_true, Bool.not_eq_true', and_assoc]
  rw [hmentioned, isDiscard_eq_false_iff, ← Bool.not_eq_true, ← Bool.not_eq_true (f.hostsExtensions d),
    ← Bool.not_eq_true (o.entryPoints.contains d.symbol), DeclarationKind.isExempt_iff,
    f.hostsExtensions_iff, List.contains_iff_mem]
  exact ⟨fun ⟨h₁, h₂, h₃, h₄, h₅, h₆⟩ => ⟨h₁, h₂, h₃, h₄, h₅, h₆⟩,
    fun ⟨h₁, h₂, h₃, h₄, h₅, h₆⟩ => ⟨h₁, h₂, h₃, h₄, h₅, h₆⟩⟩

theorem condemnedDeclarations_eq (o : DeadCodeOptions) (f : Facts) :
    f.condemnedDeclarations (Project.ofFiles grammar files) o =
      f.declarations.filter fun d => IsDead grammar files o f d := by
  apply List.filter_congr
  intro d _
  rw [Bool.eq_iff_iff, decide_eq_true_iff]
  exact condemned_iff_isDead h o f d

end Verdict

/-- **A declaration is reported if and only if nothing mentions it.** Order aside, the findings
about declarations are one for each dead declaration of each file that is analyzed. -/
theorem dead_declarations_reported (grammar : Grammar) (files : List InputFile)
    (o : DeadCodeOptions)
    (h : ∀ file ∈ files, isAnalyzed grammar file = true → (grammar file.2).root.WellFormed) :
    (((Project.ofFiles grammar files).deadCode o).filter
        (·.kind == .unreferencedDeclaration)).Perm
      ((files.filter (isAnalyzed grammar)).flatMap fun file =>
        ((factsIn grammar file).declarations.filter fun d =>
          IsDead grammar files o (factsIn grammar file) d).map (·.finding file.1)) := by
  rw [Project.deadCode, List.filter_flatMap, Project.ofFiles_files, List.flatMap_map]
  apply List.Perm.flatMap_left
  intro file _
  refine (Facts.deadCode_declarations _ _ _).trans (List.Perm.of_eq ?_)
  rw [condemnedDeclarations_eq h]
  rfl

/-- The class `@A` is mentioned in both files; the fields and the class `B` are not, since a text
file counts for nothing. -/
theorem smallProject_dead_declarations :
    (∀ file ∈ smallProject, isAnalyzed smallGrammar file = true →
        (smallGrammar file.2).root.WellFormed) ∧
      (((Project.ofFiles smallGrammar smallProject).deadCode {}).filter
        (·.kind == .unreferencedDeclaration)).Perm
          [⟨.unreferencedDeclaration, "b", "Shapes.cs", 1⟩,
            ⟨.unreferencedDeclaration, "B", "Use.cs", 1⟩,
            ⟨.unreferencedDeclaration, "a", "Use.cs", 1⟩] := by
  have hwf : ∀ file ∈ smallProject, isAnalyzed smallGrammar file = true →
      (smallGrammar file.2).root.WellFormed := by decide
  exact ⟨hwf, (dead_declarations_reported smallGrammar smallProject {} hwf).trans
    (List.Perm.of_eq (by decide))⟩

end CodeSmell
