import CodeSmell.Proofs.Facts.Callables
import CodeSmell.Proofs.Facts.Context
import CodeSmell.Proofs.Project.UnreferencedDeclarations

/-!
# Types that hold extension methods

* `Place.DeclaresExtension` : a method with a name whose first parameter is marked `this`;
* `Node.HostsExtensions` : there is such a method in a type whose path from the nearest namespace, as it
  is written, is a given name. These are the classes that a file is known to hold extension methods in
  (`mem_extensionHosts_iff`);
* `unmentioned_types_reported` : which types outside all types are reported. A type is spared for the
  extension methods in its own file, under the name that is written there; what other files hold of the
  type does not count (`part_of_extension_host_reported`).
-/

namespace CodeSmell

open Syntax

namespace Syntax

/-- A method with a name whose first parameter is marked `this`. -/
structure Place.DeclaresExtension (v : Place) : Prop where
  method : v.node.construct = .declaration .method
  has_name : (v.node.childByField? "name").isSome = true
  receiver : v.node.isExtensionMethod = true

instance (v : Place) : Decidable v.DeclaresExtension :=
  decidable_of_iff
    (v.node.construct = .declaration .method ∧ (v.node.childByField? "name").isSome = true ∧
      v.node.isExtensionMethod = true)
    ⟨fun ⟨h₁, h₂, h₃⟩ => ⟨h₁, h₂, h₃⟩, fun ⟨h₁, h₂, h₃⟩ => ⟨h₁, h₂, h₃⟩⟩

/-- Somewhere in a tree there is an extension method in a type whose path from the nearest namespace,
as it is written, is `name`. -/
def Node.HostsExtensions (root : Node) (name : String) : Prop :=
  ∃ v ∈ root.visible, v.DeclaresExtension ∧ dotJoin (typeNames v.ancestors) = some name

instance (root : Node) (name : String) : Decidable (root.HostsExtensions name) :=
  List.decidableBEx _ _

namespace Place

theorem namespaceDeclaration?_isExtension {n : Node} {outer : Option String} :
    ∀ d ∈ n.namespaceDeclaration? outer, d.isExtension = false := by
  unfold Node.namespaceDeclaration?
  intro d hd
  obtain ⟨name, -, rfl⟩ := Option.map_eq_some_iff.mp hd
  rfl

/-- Only callables are extension methods. -/
theorem isCallable_of_isExtension {v : Place} {here : Scope} {d : Declaration}
    (hd : d ∈ v.declarations here) (h : d.isExtension = true) : d.kind.isCallable = true := by
  rcases List.mem_append.mp hd with hintroduced | hnamespace
  · obtain ⟨i, -, rfl⟩ := List.mem_map.mp hintroduced
    obtain ⟨hmethod, -⟩ := Bool.and_eq_true_iff.mp h
    change i.kind.isCallable = true
    rw [eq_of_beq hmethod]
    rfl
  · rw [namespaceDeclaration?_isExtension d (Option.mem_toList.mp hnamespace)] at h
    cases h

theorem isExtension_iff (v : Place) (here : Scope) :
    (∃ c ∈ v.callable?, (c.declaration here).isExtension = true) ↔ v.DeclaresExtension := by
  constructor
  · rintro ⟨c, hc, hextension⟩
    obtain ⟨hmethod, hreceiver⟩ := Bool.and_eq_true_iff.mp hextension
    rw [owner_of_callable? hc] at hreceiver
    obtain ⟨kind, hkind, hc⟩ := Option.bind_eq_some_iff.mp hc
    obtain ⟨site, hsite, rfl⟩ := Option.map_eq_some_iff.mp hc
    obtain rfl : kind = .method := eq_of_beq hmethod
    have hconstruct : v.node.construct = .declaration .method := by
      unfold Node.callableKind? at hkind
      split at hkind
      · next kind hconstruct =>
        split at hkind
        · cases hkind
          exact hconstruct
        · cases hkind
      all_goals cases hkind
    rw [Node.callableSite?, hconstruct] at hsite
    exact ⟨hconstruct, Option.isSome_iff_exists.mpr ⟨site, hsite⟩, hreceiver⟩
  · rintro ⟨hconstruct, hname, hreceiver⟩
    obtain ⟨site, hsite⟩ := Option.isSome_iff_exists.mp hname
    have hkind : v.node.callableKind? = some .method := by
      rw [Node.callableKind?, hconstruct]
      rfl
    have hsite : v.node.callableSite? = some site := by
      rw [Node.callableSite?, hconstruct]
      exact hsite
    refine ⟨⟨v.node, site, v.callableName site, .method⟩, ?_, hreceiver⟩
    rw [Option.mem_def, callable?, hkind, Option.bind_some, hsite]
    rfl

theorem filterMap_container (v : Place) (here : Scope) :
    ((v.declarations here).filter (·.isExtension)).filterMap (·.container) =
      if v.DeclaresExtension then here.container.toList else [] := by
  have hcallables : (v.declarations here).filter (·.isExtension) =
      (v.callable?.toList.map (·.declaration here)).filter (·.isExtension) := by
    rw [← v.filter_declarations here, List.filter_filter]
    refine List.filter_congr fun d hd => ?_
    cases hextension : d.isExtension with
    | true => rw [isCallable_of_isExtension hd hextension]; rfl
    | false => rw [Bool.false_and]
  have hiff := v.isExtension_iff here
  rw [hcallables]
  cases hc : v.callable? with
  | none =>
    rw [hc] at hiff
    rw [if_neg fun h => by obtain ⟨c, hmem, -⟩ := hiff.mpr h; cases hmem]
    rfl
  | some c =>
    simp only [hc, Option.mem_some_iff, exists_eq_left'] at hiff
    simp only [← hiff, Option.toList_some, List.map_cons, List.map_nil]
    cases hextension : (c.declaration here).isExtension with
    | true =>
      have hcontainer : (c.declaration here).container = here.container := rfl
      rw [List.filter_cons_of_pos hextension, List.filter_nil, if_pos rfl, List.filterMap_cons,
        hcontainer]
      cases here.container <;> rfl
    | false =>
      rw [List.filter_cons_of_neg (by rw [hextension]; decide), if_neg (by decide)]
      rfl

end Place

end Syntax

theorem Syntax.Node.container_of_isNamespace {n : Node} {scope inner : Scope}
    {outer : Option String} (h : n.isNamespace = true)
    (hinner : n.innerScope? scope outer = some inner) : inner.container = none := by
  unfold Node.innerScope? at hinner
  rcases Bool.or_eq_true_iff.mp h with hblock | hfile
  · rw [eq_of_beq hblock] at hinner
    obtain rfl := Option.some.inj hinner
    rfl
  · rw [eq_of_beq hfile] at hinner
    obtain rfl := Option.some.inj hinner
    rfl

namespace Findings

/-- The types that a walk is in are those around. -/
theorem keeps_container :
    Keeps fun around scope => scope.container = dotJoin (typeNames around) where
  root := rfl
  parts := by
    intro n around scope inner outer hscope hinner
    cases hframe : n.isFrame with
    | false =>
      have hopen : n.isClosed = false := by
        rw [← Bool.not_eq_true, ← n.innerScope?_eq_none_iff scope outer, hinner]
        exact nofun
      rw [Node.innerScope?_of_not_isFrame hframe hopen] at hinner
      obtain rfl := Option.some.inj hinner
      rw [hscope]
      exact (congrArg Scope.container (scopeAmong_cons hframe [] around)).symm
    | true =>
      cases hnamespace : n.isNamespace with
      | true =>
        rw [typeNames_cons_of_isNamespace hnamespace, Node.container_of_isNamespace hnamespace hinner]
        rfl
      | false =>
        have htype : n.isTypeDeclaration = true := by
          rwa [Node.isFrame, hnamespace, Bool.or_false] at hframe
        have hname : n.typeName? = n.writtenName? := if_pos htype
        unfold Node.isTypeDeclaration at htype
        split at htype
        · next kind hconstruct =>
          rw [Node.innerScope?, hconstruct] at hinner
          obtain rfl := Option.some.inj hinner
          rw [typeNames_cons hnamespace, hname, ← Node.innerContainer_dotJoin, hscope]
        · cases htype

theorem walk_extensionHosts (root : Node) :
    ((walk root).declarations.toList.filter (·.isExtension)).filterMap (·.container) =
      root.visible.flatMap fun v =>
        if v.DeclaresExtension then (dotJoin (typeNames v.ancestors)).toList else [] := by
  refine walk_eq_flatMap_of keeps_container
    (fun f => (f.declarations.toList.filter (·.isExtension)).filterMap (·.container)) _ rfl
    (fun f p hscope => ?_) root
  rw [visit_declarations, List.filter_append, List.filterMap_append, p.place.filterMap_container,
    here, hscope]
  rfl

end Findings

/-- The classes that a file is known to hold extension methods in. -/
theorem mem_extensionHosts_iff {path : String} {tree : Tree} {name : String} :
    name ∈ (Facts.ofTree path tree).extensionHosts ↔ tree.root.HostsExtensions name := by
  change name ∈ ((Findings.walk tree.root).declarations.toList.filter _).filterMap _ ↔ _
  rw [Findings.walk_extensionHosts, List.mem_flatMap]
  refine exists_congr fun v => and_congr_right fun _ => ?_
  split
  · next hextension => rw [and_iff_right hextension, Option.mem_toList]
  · next hextension => exact iff_of_false List.not_mem_nil fun h => hextension h.1

/-- **Types that nothing mentions are reported unless their file gives them extension methods.** Order
aside, the findings about declarations are one for each condemned declaration of each file that is
analyzed. A type outside all types is condemned if and only if it has to be mentioned, no file mentions
it, and in its own file no extension method stands in a type that is written with its symbol. -/
theorem unmentioned_types_reported (grammar : Grammar) (files : List InputFile)
    (o : DeadCodeOptions) :
    (((Project.ofFiles grammar files).deadCode o).filter
        (·.kind == .unreferencedDeclaration)).Perm
      ((files.filter (isAnalyzed grammar)).flatMap fun file =>
        ((factsIn grammar file).condemnedDeclarations (Project.ofFiles grammar files) o).map
          (·.finding file.1)) ∧
      ∀ file ∈ files, isAnalyzed grammar file = true →
        ∀ d ∈ (factsIn grammar file).declarations, d.kind.isType = true → d.container = none →
          (d ∈ (factsIn grammar file).condemnedDeclarations (Project.ofFiles grammar files) o ↔
            isCandidate o d = true ∧ d.symbol ∉ (Project.ofFiles grammar files).referenced ∧
              ¬ (grammar file.2).root.HostsExtensions d.symbol) := by
  constructor
  · rw [Project.deadCode, List.filter_flatMap, Project.ofFiles_files, List.flatMap_map]
    exact List.Perm.flatMap_left _ fun file _ => Facts.deadCode_declarations _ _ _
  · intro file _ _ d hd htype htop
    have hhosts : (factsIn grammar file).hostsExtensions d = true ↔
        (grammar file.2).root.HostsExtensions d.symbol := by
      rw [Facts.hostsExtensions, htype, htop, Bool.true_and, Option.isNone_none, Bool.true_and,
        List.contains_iff_mem]
      exact mem_extensionHosts_iff
    rw [Facts.condemnedDeclarations, List.mem_filter, and_iff_right hd, Bool.and_eq_true,
      Bool.and_eq_true, Bool.not_eq_true', Bool.not_eq_true', ← Bool.not_eq_true,
      ← Bool.not_eq_true, hhosts, List.contains_iff_mem]
    tauto

theorem finding_mem_deadCode {grammar : Grammar} {files : List InputFile} {o : DeadCodeOptions}
    (file : InputFile) {d : Declaration} (hfile : file ∈ files)
    (hanalyzed : isAnalyzed grammar file = true)
    (hd : d ∈ (factsIn grammar file).condemnedDeclarations (Project.ofFiles grammar files) o) :
    d.finding file.1 ∈ (Project.ofFiles grammar files).deadCode o := by
  have hfacts : factsIn grammar file ∈ (Project.ofFiles grammar files).files := by
    rw [Project.ofFiles_files]
    exact List.mem_map_of_mem (List.mem_filter.mpr ⟨hfile, hanalyzed⟩)
  refine List.mem_flatMap.mpr ⟨_, hfacts, (Facts.deadCode_perm _ _ _).mem_iff.mpr ?_⟩
  exact List.mem_append_right _ (List.mem_map_of_mem hd)

/-! ## A class in two parts -/

namespace Syntax.Node

def modifier (start : Nat) (text : String) : Node :=
  phrase "modifier" none [token start text]

/-- The method `static void F(this int x) { }`. -/
def extensionMethod (start : Nat) : Node :=
  phrase "method_declaration" none
    [modifier start "static", predefinedType "returns" (start + 7) "void",
      word (some "name") (start + 12) "F",
      phrase "parameter_list" (some "parameters")
        [token (start + 13) "(",
          phrase "parameter" none
            [modifier (start + 14) "this", predefinedType "type" (start + 19) "int",
              word (some "name") (start + 23) "x"],
          token (start + 24) ")"],
      phrase "block" (some "body") [token (start + 26) "\x7b", token (start + 28) "\x7d"]]

def staticPart (name : String) (members : List Node) (stop : Nat) : Node :=
  phrase "compilation_unit" none
    [phrase "class_declaration" none
      [modifier 0 "static", modifier 7 "partial", token 15 "class", word (some "name") 21 name,
        body (22 + name.length) members stop]]

/-- The file `static partial class Ext { static void F(this int x) { } }`. -/
def extensionPart : Node :=
  staticPart "Ext" [extensionMethod 27] 57

/-- The file `static partial class Ext { }`. -/
def emptyPart : Node :=
  staticPart "Ext" [] 27

/-- The file `static partial class @Ext { static void F(this int x) { } }`. -/
def verbatimPart : Node :=
  staticPart "@Ext" [extensionMethod 28] 58

end Syntax.Node

def partsGrammar : Grammar := fun text =>
  if text = Node.extensionPart.text then ⟨Node.extensionPart, false⟩
  else if text = Node.emptyPart.text then ⟨Node.emptyPart, false⟩
  else if text = Node.verbatimPart.text then ⟨Node.verbatimPart, false⟩
  else Tree.unrecognizable

/-- The class `Ext` in two files, only one of which has an extension method. -/
def splitHost : List InputFile :=
  [("A.cs", Node.extensionPart.text), ("B.cs", Node.emptyPart.text)]

/-- The same class in a file that writes its name verbatim. -/
def verbatimHost : List InputFile :=
  [("V.cs", Node.verbatimPart.text)]

def extDeclaration : Declaration :=
  ⟨"Ext", .classType, ⟨21, 1⟩, none, none, false, false, none⟩

/-- The part with the extension method is spared. -/
theorem extensionPart_spared :
    extDeclaration ∉ (factsIn partsGrammar ("A.cs", Node.extensionPart.text)).condemnedDeclarations
        (Project.ofFiles partsGrammar splitHost) {} ∧
      extDeclaration ∈ (factsIn partsGrammar ("B.cs", Node.emptyPart.text)).condemnedDeclarations
        (Project.ofFiles partsGrammar splitHost) {} := by
  obtain ⟨-, hreported⟩ := unmentioned_types_reported partsGrammar splitHost {}
  constructor
  · intro hcondemned
    have hhost := ((hreported ("A.cs", Node.extensionPart.text) (by decide) (by decide)
      extDeclaration (by decide) rfl rfl).mp hcondemned).2.2
    exact hhost (by decide)
  · exact (hreported ("B.cs", Node.emptyPart.text) (by decide) (by decide) extDeclaration
      (by decide) rfl rfl).mpr ⟨by decide, by decide, by decide⟩

/-- The class `Ext` is reported at its part without an extension method, although the other part has
one; written verbatim it is reported although the file itself has one. -/
theorem part_of_extension_host_reported :
    (Node.extensionPart.HostsExtensions "Ext" ∧
        extDeclaration ∈ (factsIn partsGrammar ("A.cs", Node.extensionPart.text)).declarations ∧
        ⟨.unreferencedDeclaration, "Ext", "B.cs", 1⟩ ∈
          (Project.ofFiles partsGrammar splitHost).deadCode {}) ∧
      Node.verbatimPart.HostsExtensions "@Ext" ∧ symbolName "@Ext" = "Ext" ∧
        ⟨.unreferencedDeclaration, "@Ext", "V.cs", 1⟩ ∈
          (Project.ofFiles partsGrammar verbatimHost).deadCode {} := by
  refine ⟨⟨by decide, by decide, ?_⟩, by decide, by decide, ?_⟩
  · exact finding_mem_deadCode ("B.cs", Node.emptyPart.text) (d := extDeclaration)
      (by decide) (by decide) (by decide)
  · exact finding_mem_deadCode ("V.cs", Node.verbatimPart.text)
      (d := { extDeclaration with name := "@Ext" }) (by decide) (by decide) (by decide)

end CodeSmell
