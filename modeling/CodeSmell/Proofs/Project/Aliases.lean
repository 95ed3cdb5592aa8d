import CodeSmell.Proofs.Project.UnreferencedDeclarations

/-!
# Aliases

* `Node.AliasDirective` : a directive that gives a name to a namespace or a type, and the directive that
  is recorded for it (`AliasDirective.using?_eq`);
* `UsingDirective.AppliesTo`, `UsingDirective.MentionedIn` : the files that a directive is about, its own
  or all that are analyzed, and whether a symbol is mentioned in one of them;
* `condemned_alias_iff` : an alias is reported if it is not mentioned as it is written;
* `alias_imports_reported` : this is what it should be for an alias without a verbatim `@`; one with an
  `@` is reported even if it is mentioned (`verbatim_alias_reported`).
-/

namespace CodeSmell

open Syntax

namespace Syntax.Node

/-! ## Directives for aliases -/

/-- A directive that gives the name `given` to `target`. -/
structure AliasDirective (n given target : Node) : Prop where
  directive : n.construct = .usingDirective
  names : n.children.filter (fun c => c.named && !directiveWords.contains c.kind) = [given, target]
  equals : n.children.any (·.kind == "=") = true
  unwrapped : ∀ c ∈ n.children, c.kind ≠ "name_equals"

theorem AliasDirective.using?_eq {n given target : Node} (h : n.AliasDirective given target) :
    n.using? = some
      { path := Text.compact target.text
        aliasName := some given.text
        isStatic := n.children.any (·.kind == "static")
        isGlobal := n.children.any (·.kind == "global")
        position := n.position } := by
  have hwrapped : n.children.filter (·.kind == "name_equals") = [] :=
    List.filter_eq_nil_iff.mpr fun c hc hkind => h.unwrapped c hc (eq_of_beq hkind)
  unfold using?
  simp only [h.names, h.equals, hwrapped]
  rw [h.directive]
  rfl

/-! ## Verbatim names -/

/-- No visible identifier begins with more than one `@`. -/
def SinglyVerbatim (root : Node) : Prop :=
  ∀ v ∈ root.visible, v.node.isIdentifier = true → (symbolName v.node.text).toList.head? ≠ some '@'

instance (root : Node) : Decidable root.SinglyVerbatim :=
  inferInstanceAs (Decidable (∀ v ∈ root.visible, _))

end Syntax.Node

theorem suffix_of_attributeClass? {name found : String} (h : attributeClass? name = some found) :
    "Attribute".toList <:+ found.toList := by
  unfold attributeClass? at h
  dsimp only at h
  split at h
  · cases h
  · rw [← Option.some.inj h, String.toList_append]
    exact List.suffix_append _ _

/-- What begins with an `@` is mentioned by no identifier, and what does not end in `Attribute` by no
attribute. -/
theorem Syntax.Node.SinglyVerbatim.not_mentions {root : Node} (h : root.SinglyVerbatim)
    {symbol : String} (hverbatim : symbol.toList.head? = some '@')
    (hsuffix : ¬ "Attribute".toList <:+ symbol.toList) : root.mentions symbol = false := by
  rw [mentions, List.any_eq_false]
  intro v hv hmentions
  rcases Bool.or_eq_true_iff.mp hmentions with hword | hclass
  · rw [Bool.and_eq_true, Bool.and_eq_true, beq_iff_eq] at hword
    obtain ⟨⟨hid, rfl⟩, -⟩ := hword
    exact h v hv hid hverbatim
  · cases hr : v.node.attributeReference? with
    | none =>
      rw [hr] at hclass
      cases hclass
    | some r =>
      rw [hr] at hclass
      unfold attributeReference? at hr
      split at hr
      · obtain ⟨found, hfound, rfl⟩ := Option.map_eq_some_iff.mp hr
        obtain ⟨name, -, hname⟩ := Option.bind_eq_some_iff.mp hfound
        exact hsuffix (eq_of_beq hclass ▸ suffix_of_attributeClass? hname)
      · cases hr

/-! ## The verdict -/

namespace UsingDirective

/-- The files that a directive in a file is about: this one, or all of them. -/
def AppliesTo (u : UsingDirective) (own other : InputFile) : Prop :=
  u.isGlobal = true ∨ other = own

/-- A symbol is mentioned in a file that is analyzed and that a directive is about. -/
def MentionedIn (u : UsingDirective) (grammar : Grammar) (files : List InputFile)
    (own : InputFile) (symbol : String) : Prop :=
  ∃ other ∈ files, isAnalyzed grammar other = true ∧ u.AppliesTo own other ∧
    (grammar other.2).root.mentions symbol = true

end UsingDirective

section Verdict

variable {grammar : Grammar} {files : List InputFile} {file : InputFile} {u : UsingDirective}
  (h : ∀ file ∈ files, isAnalyzed grammar file = true → (grammar file.2).root.WellFormed)
  (hfile : file ∈ files) (hanalyzed : isAnalyzed grammar file = true)
include h hfile hanalyzed

theorem mem_usageOf_iff_mentionedIn {symbol : String} :
    symbol ∈ (usageOf (Project.ofFiles grammar files) (factsIn grammar file) u).names ↔
      u.MentionedIn grammar files file symbol := by
  unfold usageOf UsingDirective.MentionedIn UsingDirective.AppliesTo
  split
  · next hglobal =>
    rw [referenced_iff_mentions h]
    simp only [hglobal, true_or, true_and]
  · next hlocal =>
    have hown : symbol ∈ (factsIn grammar file).referenced ↔
        (grammar file.2).root.mentions symbol = true :=
      (h file hfile hanalyzed).mem_referenced_iff_mentions
    rw [hown]
    constructor
    · intro hmentions
      exact ⟨file, hfile, hanalyzed, .inr rfl, hmentions⟩
    · rintro ⟨other, -, -, hglobal | rfl, hmentions⟩
      · exact absurd hglobal hlocal
      · exact hmentions

/-- An alias is reported if and only if it is not mentioned as it is written. -/
theorem condemned_alias_iff (o : DeadCodeOptions) {given : String}
    (hu : u ∈ (factsIn grammar file).usings) (halias : u.aliasName = some given) :
    u ∈ (factsIn grammar file).condemnedImports (Project.ofFiles grammar files) o ↔
      ¬ u.MentionedIn grammar files file given := by
  rw [← mem_usageOf_iff_mentionedIn h hfile hanalyzed, Facts.condemnedImports, List.mem_filter,
    importIsUsed, halias, Bool.not_eq_true', ← Bool.not_eq_true, List.contains_iff_mem]
  exact and_iff_right hu

end Verdict

/-- **Which aliases are reported.** Order aside, the findings about directives are one for each condemned
directive of each file that is analyzed, and a visible directive for an alias is one that the file has. One
for an alias without a verbatim `@` is condemned if and only if its symbol is mentioned in none of the
files that it is about. One for an alias with an `@`, unless that ends in `Attribute`, is condemned whatever
these files mention, if none of their identifiers begins with more than one `@`. -/
theorem alias_imports_reported (grammar : Grammar) (files : List InputFile) (o : DeadCodeOptions)
    (h : ∀ file ∈ files, isAnalyzed grammar file = true → (grammar file.2).root.WellFormed) :
    (((Project.ofFiles grammar files).deadCode o).filter (·.kind == .unusedImport)).Perm
        ((files.filter (isAnalyzed grammar)).flatMap fun file =>
          ((factsIn grammar file).condemnedImports (Project.ofFiles grammar files) o).map
            (·.finding file.1)) ∧
      ∀ file ∈ files, isAnalyzed grammar file = true →
        (∀ v ∈ (grammar file.2).root.visible, ∀ given target, v.node.AliasDirective given target →
          ∃ u ∈ (factsIn grammar file).usings, u.aliasName = some given.text ∧
            u.isGlobal = v.node.children.any (·.kind == "global") ∧
            u.position = v.node.position) ∧
        ∀ u ∈ (factsIn grammar file).usings, ∀ given, u.aliasName = some given →
          (symbolName given = given →
            (u ∈ (factsIn grammar file).condemnedImports (Project.ofFiles grammar files) o ↔
              ¬ u.MentionedIn grammar files file (symbolName given))) ∧
          (symbolName given ≠ given → ¬ "Attribute".toList <:+ given.toList →
            (∀ other ∈ files, isAnalyzed grammar other = true →
              (grammar other.2).root.SinglyVerbatim) →
            u ∈ (factsIn grammar file).condemnedImports (Project.ofFiles grammar files) o) := by
  constructor
  · rw [Project.deadCode, List.filter_flatMap, Project.ofFiles_files, List.flatMap_map]
    exact List.Perm.flatMap_left _ fun file _ => Facts.deadCode_imports _ _ _
  intro file hfile hanalyzed
  constructor
  · intro v hv given target hdirective
    have hall : (factsIn grammar file).usings =
        (grammar file.2).root.visible.flatMap (·.node.using?.toList) := Findings.walk_usings _
    refine ⟨⟨Text.compact target.text, some given.text, v.node.children.any (·.kind == "static"),
      v.node.children.any (·.kind == "global"), v.node.position⟩, ?_, rfl, rfl, rfl⟩
    rw [hall, List.mem_flatMap]
    refine ⟨v, hv, ?_⟩
    rw [hdirective.using?_eq]
    exact List.mem_singleton_self _
  · intro u hu given halias
    have hverdict := condemned_alias_iff h hfile hanalyzed o hu halias
    constructor
    · intro hplain
      rw [hplain]
      exact hverdict
    · intro hverbatim hsuffix hsingly
      rw [hverdict]
      rintro ⟨other, hother, hother', -, hmentions⟩
      have hat : given.toList.head? = some '@' :=
        Decidable.not_not.mp (mt symbolName_of_head?_ne hverbatim)
      rw [(hsingly other hother hother').not_mentions hat hsuffix] at hmentions
      cases hmentions

namespace Syntax.Node

/-- The file `using … = N; class B { A x; }`. -/
def aliasing (given : String) : Node :=
  let stop := 6 + given.length
  phrase "compilation_unit" none
    [phrase "using_directive" none
      [token 0 "using", word (some "name") 6 given, token (stop + 1) "=", word none (stop + 3) "N",
        token (stop + 4) ";"],
      phrase "class_declaration" none
        [token (stop + 6) "class", word (some "name") (stop + 12) "B",
          body (stop + 14) [fieldOfA (stop + 16) "x"] (stop + 21)]]

end Syntax.Node

def aliasGrammar : Grammar := fun text =>
  if text = (Node.aliasing "A").text then ⟨Node.aliasing "A", false⟩
  else if text = (Node.aliasing "@A").text then ⟨Node.aliasing "@A", false⟩
  else Tree.unrecognizable

/-- A file that gives itself the name `A` and uses it. -/
def plainAlias : InputFile :=
  ("Plain.cs", (Node.aliasing "A").text)

/-- A file that gives itself the name `@A` and uses it. -/
def verbatimAlias : InputFile :=
  ("Verbatim.cs", (Node.aliasing "@A").text)

/-- Of two directives for one alias that is used, that with an `@` is reported. -/
theorem aliases_reported :
    (∀ file ∈ [plainAlias, verbatimAlias], isAnalyzed aliasGrammar file = true →
        (aliasGrammar file.2).root.WellFormed) ∧
      ⟨"N", some "A", false, false, ⟨0, 1⟩⟩ ∉
        (factsIn aliasGrammar plainAlias).condemnedImports
          (Project.ofFiles aliasGrammar [plainAlias, verbatimAlias]) {} ∧
      ⟨"N", some "@A", false, false, ⟨0, 1⟩⟩ ∈
        (factsIn aliasGrammar verbatimAlias).condemnedImports
          (Project.ofFiles aliasGrammar [plainAlias, verbatimAlias]) {} := by
  have hwf : ∀ file ∈ [plainAlias, verbatimAlias], isAnalyzed aliasGrammar file = true →
      (aliasGrammar file.2).root.WellFormed := by decide +kernel
  have hsingly : ∀ file ∈ [plainAlias, verbatimAlias], isAnalyzed aliasGrammar file = true →
      (aliasGrammar file.2).root.SinglyVerbatim := by decide +kernel
  obtain ⟨-, hreported⟩ := alias_imports_reported aliasGrammar [plainAlias, verbatimAlias] {} hwf
  refine ⟨hwf, fun hcondemned => ?_, ?_⟩
  · obtain ⟨-, hverdict⟩ := hreported plainAlias List.mem_cons_self (by decide +kernel)
    obtain ⟨hplain, -⟩ :=
      hverdict ⟨"N", some "A", false, false, ⟨0, 1⟩⟩ (by decide +kernel) "A" rfl
    refine (hplain (by decide)).mp hcondemned ?_
    exact ⟨plainAlias, List.mem_cons_self, by decide +kernel, .inr rfl, by decide +kernel⟩
  · obtain ⟨-, hverdict⟩ := hreported verbatimAlias (List.mem_cons_of_mem _ List.mem_cons_self)
      (by decide +kernel)
    obtain ⟨-, hverbatim⟩ :=
      hverdict ⟨"N", some "@A", false, false, ⟨0, 1⟩⟩ (by decide +kernel) "@A" rfl
    exact hverbatim (by decide) (by decide) hsingly

/-- A directive for `@A` is reported in a file that refers to `A`. -/
theorem verbatim_alias_reported :
    (Node.aliasing "@A").WellFormed ∧
      (∃ v ∈ (Node.aliasing "@A").visible,
        v.node.AliasDirective (.word (some "name") 6 "@A") (.word none 11 "N")) ∧
      symbolName "@A" = "A" ∧
      "A" ∈ (factsIn aliasGrammar verbatimAlias).referenced ∧
      (((Project.ofFiles aliasGrammar [verbatimAlias]).deadCode {}).filter
        (·.kind == .unusedImport)) = [⟨.unusedImport, "@A", "Verbatim.cs", 1⟩] := by
  have hv : (Node.aliasing "@A").visible[1] ∈ (Node.aliasing "@A").visible := List.getElem_mem _
  refine ⟨by decide +kernel, ⟨_, hv, by decide, rfl, by decide, by decide⟩, by decide,
    by decide +kernel, List.perm_singleton.mp ?_⟩
  rw [Project.deadCode, List.filter_flatMap, Project.ofFiles_files, List.flatMap_map]
  refine (List.Perm.flatMap_left _ fun file _ => Facts.deadCode_imports _ _ _).trans ?_
  exact List.Perm.of_eq (by decide +kernel)

end CodeSmell
