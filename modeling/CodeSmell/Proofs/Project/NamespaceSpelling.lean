import CodeSmell.Proofs.Facts.NamespaceSplit
import CodeSmell.Proofs.Project.Composition
import CodeSmell.Proofs.Project.Namespaces
import CodeSmell.Proofs.Project.Respelled
import Mathlib.Logic.Relation

/-!
# The spelling of nested namespaces

* `Facts.SameButSpaces` : two files say the same but for the namespaces that are declared only as the
  beginning of another one; `SplitSomewhere.sameButSpaces` says so of two that differ by a split;
* `Respaced` : a file, and one in which dotted names have been split and joined;
* `Project.declares_iff_of_same`, `Project.reportedImports_perm_of_same` : where two projects of such
  files declare all of their namespaces, they declare the same and report the same directives;
* `namespaces_indexed` : what the index has of a namespace, and what respacing leaves alone. Of a name
  with three parts that is declared alone, it has only the last one (`joinedSpace_not_indexed`).
-/

namespace CodeSmell

open Syntax

/-! ## Files that differ in their namespaces -/

namespace Facts

/-- The declarations of a file other than namespaces, without where they begin. -/
def others (f : Facts) : List Declaration :=
  (f.declarations.filter (·.kind != .namespaceName)).map Declaration.adrift

/-- Two files say the same, but for where they say it and for namespaces that are declared only as the
beginning of another one. -/
structure SameButSpaces (f g : Facts) : Prop where
  path : f.path = g.path
  others : f.others = g.others
  usings : f.usings.map UsingDirective.adrift = g.usings.map UsingDirective.adrift
  referenced : f.referenced = g.referenced
  usesQuery : f.usesQuery = g.usesQuery
  spaces : ∀ full, f.HasSpace full ↔ g.HasSpace full

namespace SameButSpaces

theorem symm {f g : Facts} (h : f.SameButSpaces g) : g.SameButSpaces f :=
  ⟨h.path.symm, h.others.symm, h.usings.symm, h.referenced.symm, h.usesQuery.symm,
    fun full => (h.spaces full).symm⟩

theorem trans {f g k : Facts} (h : f.SameButSpaces g) (h' : g.SameButSpaces k) :
    f.SameButSpaces k :=
  ⟨h.path.trans h'.path, h.others.trans h'.others, h.usings.trans h'.usings,
    h.referenced.trans h'.referenced, h.usesQuery.trans h'.usesQuery,
    fun full => (h.spaces full).trans (h'.spaces full)⟩

end SameButSpaces

/-- The namespaces of a file by its declarations without where they begin. -/
theorem declaresSpace_iff_adrift {f : Facts} {full : String} :
    f.DeclaresSpace full ↔
      ∃ d ∈ f.declarations.map Declaration.adrift, d.kind = .namespaceName ∧ d.name = full := by
  simp only [DeclaresSpace, List.mem_map, exists_exists_and_eq_and]
  rfl

theorem others_eq_adrift (f : Facts) : f.others =
    (f.declarations.map Declaration.adrift).filter (·.kind != .namespaceName) := by
  rw [List.filter_map]
  rfl

/-- A file that declares one namespace more, inside which there is one in any case, has the same
namespaces. -/
theorem hasSpace_iff_of_one_more {f g : Facts} {more name : String}
    (hdeclares : ∀ space, g.DeclaresSpace space ↔ f.DeclaresSpace space ∨ more = space)
    (hinside : f.DeclaresSpace (more ++ "." ++ name)) (space : String) :
    f.HasSpace space ↔ g.HasSpace space := by
  constructor
  · rintro (h | ⟨rest, h⟩)
    · exact .inl ((hdeclares space).mpr (.inl h))
    · exact .inr ⟨rest, (hdeclares _).mpr (.inl h)⟩
  · rintro (h | ⟨rest, h⟩)
    · rcases (hdeclares space).mp h with h | rfl
      · exact .inl h
      · exact .inr ⟨name, hinside⟩
    · rcases (hdeclares _).mp h with h | rfl
      · exact .inr ⟨rest, h⟩
      · exact .inr ⟨rest ++ "." ++ name, by simpa only [String.append_assoc] using hinside⟩

end Facts

/-- With a namespace split somewhere, a file says the same but for the first parts of its name. -/
theorem SplitSomewhere.sameButSpaces {r : Move} {n m : Node} (s : SplitSomewhere r n m) (path : String)
    (hasError hasError' : Bool) :
    (Facts.ofTree path ⟨n, hasError⟩).SameButSpaces (Facts.ofTree path ⟨m, hasError'⟩) := by
  obtain ⟨front, more, full, hparallel, hmore, hfull, name, hname⟩ := s.walk
  obtain ⟨behind, hn, hm⟩ := hparallel.declarations
  have hn' : (Facts.ofTree path ⟨n, hasError⟩).declarations.map Declaration.adrift =
      front ++ [full] ++ behind := hn
  have hm' : (Facts.ofTree path ⟨m, hasError'⟩).declarations.map Declaration.adrift =
      front ++ [more, full] ++ behind := hm
  -- the one declaration that differs is a namespace, inside which the next one is
  have hdeclares : ∀ space, (Facts.ofTree path ⟨m, hasError'⟩).DeclaresSpace space ↔
      (Facts.ofTree path ⟨n, hasError⟩).DeclaresSpace space ∨ more.name = space := by
    intro space
    have hmem : ∀ d, d ∈ front ++ [more, full] ++ behind ↔ d ∈ front ++ [full] ++ behind ∨ d = more := by
      intro d
      simp only [List.mem_append, List.mem_cons, List.not_mem_nil, or_false]
      tauto
    rw [Facts.declaresSpace_iff_adrift, Facts.declaresSpace_iff_adrift, hn', hm']
    simp only [hmem, or_and_right, exists_or, exists_eq_left, hmore, true_and]
  have hinside : (Facts.ofTree path ⟨n, hasError⟩).DeclaresSpace (more.name ++ "." ++ name) := by
    rw [Facts.declaresSpace_iff_adrift, hn']
    exact ⟨full, by simp, hfull, hname⟩
  refine ⟨rfl, ?_, hparallel.usings.symm, hparallel.references.symm, hparallel.usesQuery.symm,
    Facts.hasSpace_iff_of_one_more hdeclares hinside⟩
  rw [Facts.others_eq_adrift, Facts.others_eq_adrift, hn', hm']
  simp [hmore, hfull]

/-! ## Respaced files -/

/-- Two trees that differ by splits and joins of namespaces with dotted names. -/
def SpaceEquivalent : Node → Node → Prop :=
  Relation.EqvGen fun n m => ∃ r, SplitSomewhere r n m

/-- A file, and one of the same path in which namespaces with dotted names have been split and joined. -/
def Respaced (grammar : Grammar) (file file' : InputFile) : Prop :=
  file.1 = file'.1 ∧ SpaceEquivalent (grammar file.2).root (grammar file'.2).root

theorem SplitSomewhere.kind_ne {r : Move} {n m : Node} (s : SplitSomewhere r n m) :
    (n.kind == "ERROR") = false ∧ (m.kind == "ERROR") = false := by
  cases s with
  | here split =>
    rw [split.dotted.kind, split.around.kind]
    decide
  | inFile kinds =>
    rw [kinds.1, kinds.2]
    decide
  | inBlock b c =>
    rw [b.kind, c.kind]
    decide

namespace SpaceEquivalent

theorem kind_eq {n m : Node} (h : SpaceEquivalent n m) :
    (n.kind == "ERROR") = (m.kind == "ERROR") := by
  induction h with
  | rel n m hsplit =>
    obtain ⟨r, s⟩ := hsplit
    rw [s.kind_ne.1, s.kind_ne.2]
  | refl => rfl
  | symm _ _ _ ih => exact ih.symm
  | trans _ _ _ _ _ ih ih' => exact ih.trans ih'

theorem sameButSpaces {n m : Node} (h : SpaceEquivalent n m) (path : String)
    (hasError hasError' : Bool) :
    (Facts.ofTree path ⟨n, hasError⟩).SameButSpaces (Facts.ofTree path ⟨m, hasError'⟩) := by
  have hflag (n : Node) (e e' : Bool) :
      (Facts.ofTree path ⟨n, e⟩).SameButSpaces (Facts.ofTree path ⟨n, e'⟩) :=
    ⟨rfl, rfl, rfl, rfl, rfl, fun _ => Iff.rfl⟩
  induction h generalizing hasError hasError' with
  | rel n m hsplit =>
    obtain ⟨r, s⟩ := hsplit
    exact s.sameButSpaces path hasError hasError'
  | refl n => exact hflag n hasError hasError'
  | symm _ _ _ ih => exact (ih hasError' hasError).symm
  | trans _ _ _ _ _ ih ih' => exact (ih hasError hasError).trans (ih' hasError hasError')

end SpaceEquivalent

namespace Respaced

variable {grammar : Grammar} {file file' : InputFile}

theorem isAnalyzed_eq (h : Respaced grammar file file') :
    isAnalyzed grammar file = isAnalyzed grammar file' := by
  unfold isAnalyzed Tree.isUnrecognizable
  rw [h.1, h.2.kind_eq]

theorem sameButSpaces (h : Respaced grammar file file') :
    (factsIn grammar file).SameButSpaces (factsIn grammar file') := by
  unfold factsIn
  rw [h.1]
  exact h.2.sameButSpaces file'.1 _ _

/-- Projects of respaced files are projects of files that say the same but for namespaces. -/
theorem files_same {files files' : List InputFile} (h : List.Forall₂ (Respaced grammar) files files') :
    List.Forall₂ Facts.SameButSpaces (Project.ofFiles grammar files).files
      (Project.ofFiles grammar files').files :=
  Project.ofFiles_forall₂ (fun _ _ hfile => hfile.isAnalyzed_eq)
    (fun _ _ hfile => hfile.sameButSpaces) h

end Respaced

/-! ## Projects of respaced files -/

theorem Declaration.directlyIn_adrift {d : Declaration} {scope name : String} :
    d.adrift.DirectlyIn scope name ↔ d.DirectlyIn scope name := by
  rw [← mem_scopeEntries_iff_directlyIn, ← mem_scopeEntries_iff_directlyIn]
  rfl

theorem Facts.exists_other_iff (f : Facts) {scope name : String} :
    (∃ d ∈ f.declarations, d.kind ≠ .namespaceName ∧ d.DirectlyIn scope name) ↔
      ∃ d ∈ f.others, d.DirectlyIn scope name := by
  constructor
  · rintro ⟨d, hd, hkind, hin⟩
    have hother : d ∈ f.declarations.filter (·.kind != .namespaceName) :=
      List.mem_filter.mpr ⟨hd, bne_iff_ne.mpr hkind⟩
    exact ⟨d.adrift, List.mem_map_of_mem hother, Declaration.directlyIn_adrift.mpr hin⟩
  · rintro ⟨_, hd, hin⟩
    obtain ⟨d, hother, rfl⟩ := List.mem_map.mp hd
    obtain ⟨hd, hkind⟩ := List.mem_filter.mp hother
    exact ⟨d, hd, bne_iff_ne.mp hkind, Declaration.directlyIn_adrift.mp hin⟩

/-- A verdict on a directive depends on the names that are declared under its path. -/
theorem importIsUsed_congr {p q : Project} {o : DeadCodeOptions} {usage : Usage} {u : UsingDirective}
    (h : u.aliasName = none → ∀ name, p.Declares u.path name ↔ q.Declares u.path name) :
    importIsUsed p o usage u = importIsUsed q o usage u := by
  rw [Bool.eq_iff_iff]
  cases halias : u.aliasName with
  | some name => rw [importIsUsed_of_alias halias, importIsUsed_of_alias halias]
  | none =>
    have hdeclares := h halias
    have husage : usage.Within usage := ⟨List.Subset.refl _, id⟩
    constructor
    · exact importIsUsed_mono rfl rfl hdeclares husage
    · exact importIsUsed_mono rfl rfl (fun name => (hdeclares name).symm) husage

namespace Project

variable {p q : Project} (h : List.Forall₂ Facts.SameButSpaces p.files q.files)
include h

theorem hasSpace_iff_of_same (full : String) : p.HasSpace full ↔ q.HasSpace full :=
  exists_mem_iff_of_forall₂ (fun _ _ hfg => hfg.spaces full) h

theorem declaresOther_iff_of_same (scope name : String) :
    p.DeclaresOther scope name ↔ q.DeclaresOther scope name := by
  refine exists_mem_iff_of_forall₂ (fun f g hfg => ?_) h
  rw [f.exists_other_iff, g.exists_other_iff, hfg.others]

/-- Where both declare all of their namespaces, they declare the same. -/
theorem declares_iff_of_same {scope : String} (hp : p.Complete scope) (hq : q.Complete scope)
    (name : String) : p.Declares scope name ↔ q.Declares scope name := by
  rw [hp.declares_iff, hq.declares_iff, hasSpace_iff_of_same h, declaresOther_iff_of_same h]

theorem referenced_eq_of_same : p.referenced = q.referenced :=
  flatMap_eq_of_forall₂ (fun _ _ hfg => hfg.referenced) h

theorem usesQuery_eq_of_same : p.usesQuery = q.usesQuery :=
  usesQuery_eq_of_forall₂ (fun _ _ hfg => hfg.usesQuery) h

end Project

/-- The directives that are reported, without where they stand. -/
theorem Facts.condemnedImports_adrift (f : Facts) (p : Project) (o : DeadCodeOptions) :
    (f.condemnedImports p o).map UsingDirective.adrift =
      (f.usings.map UsingDirective.adrift).filter
        fun u => !importIsUsed p o (usageOf p f u) u := by
  rw [List.filter_map]
  rfl

/-- Projects of such files report the same directives of a file, if they declare the same under the
paths of its directives. -/
theorem Facts.SameButSpaces.condemnedImports_eq {f g : Facts} (hfg : f.SameButSpaces g)
    {p q : Project} (h : List.Forall₂ Facts.SameButSpaces p.files q.files) (o : DeadCodeOptions)
    (hdeclares : ∀ u ∈ f.usings, u.aliasName = none →
      ∀ name, p.Declares u.path name ↔ q.Declares u.path name) :
    (f.condemnedImports p o).map UsingDirective.adrift =
      (g.condemnedImports q o).map UsingDirective.adrift := by
  have husage : ∀ u, usageOf p f u = usageOf q g u := by
    intro u
    unfold usageOf
    rw [Project.referenced_eq_of_same h, Project.usesQuery_eq_of_same h, hfg.referenced,
      hfg.usesQuery]
  rw [Facts.condemnedImports_adrift, Facts.condemnedImports_adrift, ← hfg.usings]
  refine List.filter_congr fun v hv => ?_
  obtain ⟨u, hu, rfl⟩ := List.mem_map.mp hv
  rw [husage]
  exact congrArg (!·) (importIsUsed_congr (hdeclares u hu))

/-- What a report has about directives: the names and the files. -/
def Project.reportedImports (p : Project) (o : DeadCodeOptions) : List (String × String) :=
  ((p.deadCode o).filter (·.kind == .unusedImport)).map fun x => (x.identifier, x.file)

theorem Project.reportedImports_perm (p : Project) (o : DeadCodeOptions) :
    (p.reportedImports o).Perm (p.files.flatMap fun f =>
      ((f.condemnedImports p o).map UsingDirective.adrift).map fun u => (u.displayName, f.path)) := by
  refine ((p.deadCode_imports o).map fun x => (x.identifier, x.file)).trans (List.Perm.of_eq ?_)
  rw [List.map_flatMap]
  refine List.flatMap_congr fun f _ => ?_
  rw [List.map_map, List.map_map]
  rfl

/-- Two projects of the same files but for namespaces report the same directives, where both declare
all of their namespaces under the paths of these. -/
theorem Project.reportedImports_perm_of_same {p q : Project}
    (h : List.Forall₂ Facts.SameButSpaces p.files q.files) (o : DeadCodeOptions)
    (hcomplete : ∀ f ∈ p.files, ∀ u ∈ f.usings, u.aliasName = none →
      p.Complete u.path ∧ q.Complete u.path) :
    (p.reportedImports o).Perm (q.reportedImports o) := by
  refine (p.reportedImports_perm o).trans ((List.Perm.of_eq ?_).trans (q.reportedImports_perm o).symm)
  have hsame : List.Forall₂ (fun f g => f ∈ p.files ∧ f.SameButSpaces g) p.files q.files :=
    (List.forall₂_and_left _ _).mpr ⟨fun f hf => hf, h⟩
  refine flatMap_eq_of_forall₂ (fun f g hfg => ?_) hsame
  have hcondemned := hfg.2.condemnedImports_eq h o fun u hu halias =>
    Project.declares_iff_of_same h (hcomplete f hfg.1 u hu halias).1 (hcomplete f hfg.1 u hu halias).2
  rw [hcondemned, hfg.2.path]

/-- **What the index has of a namespace.** Of a namespace with a dotted name, the index has a part under
the parts in front of it if a namespace is declared by the full name of all these parts, or something else
of that name is declared there. It has all parts of all namespaces where whatever is around a namespace is
declared as well, as it is where all namespaces have names without dots. Splits and joins of dotted names
change no namespace of a project; they change neither what the index has in a scope nor a verdict on a
directive where the projects declare all of their namespaces in that scope, or under the paths of the
directives. -/
theorem namespaces_indexed (grammar : Grammar) (files : List InputFile) :
    let p := Project.ofFiles grammar files
    (∀ parts : List String, (∀ name ∈ parts, '.' ∉ name.toList) →
      p.DeclaresSpace (".".intercalate parts) → ∀ i, 0 < i → ∀ hi : i < parts.length,
      ((∃ names, p.declaredIn? (".".intercalate (parts.take i)) = some names ∧ parts[i] ∈ names) ↔
        p.DeclaresSpace (".".intercalate (parts.take (i + 1))) ∨
          p.DeclaresOther (".".intercalate (parts.take i)) parts[i]) ∧
      (p.ParentsDeclared →
        ∃ names, p.declaredIn? (".".intercalate (parts.take i)) = some names ∧ parts[i] ∈ names)) ∧
      (p.ParentsDeclared → ∀ scope, p.Complete scope) ∧
      ((∀ file ∈ files, isAnalyzed grammar file = true → (grammar file.2).root.SingleNames) →
        p.ParentsDeclared) ∧
      ∀ files', List.Forall₂ (Respaced grammar) files files' →
        let q := Project.ofFiles grammar files'
        (∀ full, p.HasSpace full ↔ q.HasSpace full) ∧
          (∀ scope, p.Complete scope → q.Complete scope → ∀ name,
            ((∃ names, p.declaredIn? scope = some names ∧ name ∈ names) ↔
              ∃ names, q.declaredIn? scope = some names ∧ name ∈ names)) ∧
          ∀ o, (∀ f ∈ p.files, ∀ u ∈ f.usings, u.aliasName = none →
              p.Complete u.path ∧ q.Complete u.path) →
            (p.reportedImports o).Perm (q.reportedImports o) := by
  intro p
  refine ⟨fun parts hparts hdeclared i hpos hi => ?_, Project.complete_of_parentsDeclared,
    parentsDeclared_of_singleNames, fun files' h => ?_⟩
  · have hsimple : '.' ∉ parts[i].toList := hparts _ (List.getElem_mem hi)
    rw [Project.mem_declaredIn?_iff, intercalate_take_succ hpos hi]
    constructor
    · rw [Project.declares_iff, and_iff_right hsimple]
    · intro hparents
      refine Project.complete_of_parentsDeclared hparents _ _ hsimple ?_
      rw [← intercalate_take_succ hpos hi]
      exact Project.hasSpace_take hdeclared i
  · have hsame := Respaced.files_same h
    refine ⟨Project.hasSpace_iff_of_same hsame, fun scope hp hq name => ?_,
      Project.reportedImports_perm_of_same hsame⟩
    rw [Project.mem_declaredIn?_iff, Project.mem_declaredIn?_iff]
    exact Project.declares_iff_of_same hsame hp hq name

/-! ## A namespace in three spellings -/

namespace Syntax.Node

/-- A namespace with one member, on the first line. -/
def spaceAround (start : Nat) (name : Node) (opening : Nat) (inside : Node) (closing : Nat) : Node :=
  phrase "namespace_declaration" none [token start "namespace", name, body opening [inside] closing]

def classD (start : Nat) : Node :=
  phrase "class_declaration" none
    [token start "class", word (some "name") (start + 6) "D", body (start + 8) [] (start + 10)]

def nameAB (field : String) : Node :=
  phrase "qualified_name" (some field)
    [word (some "qualifier") 10 "A", token 11 ".", word (some "name") 12 "B"]

def nameABC : Node :=
  phrase "qualified_name" (some "name")
    [nameAB "qualifier", token 13 ".", word (some "name") 14 "C"]

/-- The class in a namespace `A.B.C`. -/
def joinedSpace : Node :=
  spaceAround 0 nameABC 16 (classD 18) 30

/-- The class in a namespace `C` in a namespace `A.B`. -/
def mixedSpace : Node :=
  spaceAround 0 (nameAB "name") 14 (spaceAround 16 (word (some "name") 26 "C") 28 (classD 30) 42) 44

/-- The class in a namespace `C` in a namespace `B` in a namespace `A`. -/
def splitSpace : Node :=
  spaceAround 0 (word (some "name") 10 "A") 12
    (spaceAround 14 (word (some "name") 24 "B") 26
      (spaceAround 28 (word (some "name") 38 "C") 40 (classD 42) 54) 56) 58

def spaceFile (space : Node) : Node :=
  phrase "compilation_unit" none [space]

/-- A file with nothing but a directive for `A`. -/
def importingA : Node :=
  phrase "compilation_unit" none
    [phrase "using_directive" none [token 0 "using", word none 6 "A", token 7 ";"]]

def partsOfSpace (start : Nat) {name : Node} (opening : Nat) {inside : Node} (closing : Nat)
    (name_field : name.field = some "name")
    (name_parts : ∀ v ∈ name.places, v.node.construct = .other ∨
      v.node.construct = .identifier ∧ v.node.start ∈ name.identifiersUnder.map (·.start))
    (no_field : inside.field = none) :
    NamespaceBlock (spaceAround start name opening inside closing) where
  keyword := [token start "namespace"]
  name := name
  gap := []
  body := body opening [inside] closing
  trailing := []
  opening := [token opening "\x7b"]
  members := [inside]
  closing := [token closing "\x7d"]
  kind := rfl
  children := rfl
  name_field := name_field
  name_parts := name_parts
  body_kind := rfl
  body_children := rfl
  marks := by
    intro m hm
    have hcases : m = token start "namespace" ∨ m = token opening "\x7b" ∨
        m = token closing "\x7d" := by simpa using hm
    rcases hcases with rfl | rfl | rfl <;> exact ⟨rfl, rfl, rfl⟩
  members_field := by
    intro m hm
    rw [List.mem_singleton.mp hm]
    exact no_field

/-- Makes room for one more `namespace` and its braces in front of an offset. -/
def roomBehind (offset : Nat) : Move where
  start b := if b < offset then b else b + 12
  stop b := if b ≤ offset then b else b + 12
  line _ := 1
  injective := by
    intro a b hab
    split at hab <;> split at hab <;> omega

/-- `A.B.C` with its last part in a namespace of its own. -/
def splitBeforeC : NamespaceSplit (roomBehind 14) joinedSpace mixedSpace where
  dotted := partsOfSpace 0 16 30 rfl (by decide) rfl
  around := partsOfSpace 0 14 44 rfl (by decide) rfl
  inner := spaceAround 16 (word (some "name") 26 "C") 28 (classD 30) 42
  inside := partsOfSpace 16 28 42 rfl (by decide) rfl
  around_members := rfl
  inside_members := rfl
  name := by decide
  nameSites := by decide
  members := by
    intro m hm
    rw [List.mem_singleton.mp hm]
    exact ⟨by decide, rfl⟩

/-- `A.B` with its last part in a namespace of its own. -/
def splitBeforeB : NamespaceSplit (roomBehind 12) mixedSpace splitSpace where
  dotted := partsOfSpace 0 14 44 rfl (by decide) rfl
  around := partsOfSpace 0 12 58 rfl (by decide) rfl
  inner := spaceAround 14 (word (some "name") 24 "B") 26
    (spaceAround 28 (word (some "name") 38 "C") 40 (classD 42) 54) 56
  inside := partsOfSpace 14 26 56 rfl (by decide) rfl
  around_members := rfl
  inside_members := rfl
  name := by decide
  nameSites := by decide
  members := by
    intro m hm
    rw [List.mem_singleton.mp hm]
    exact ⟨by decide, rfl⟩

/-- Two files that differ by the split of their namespace. -/
theorem spaceEquivalent_files {r : Move} {space space' : Node} (split : NamespaceSplit r space space')
    (no_field : space.field = none ∧ space'.field = none) :
    SpaceEquivalent (spaceFile space) (spaceFile space') := by
  refine Relation.EqvGen.rel _ _ ⟨r, ?_⟩
  have hchildren : (spaceFile space).children = [] ++ space :: [] := rfl
  have hchildren' : (spaceFile space').children =
      [].map (Node.moved r) ++ space' :: [].map (Node.moved r) := rfl
  exact .inFile ⟨rfl, rfl⟩ hchildren hchildren' (by simp) no_field (.here split)

end Syntax.Node

def grammarOfSpaces : Grammar := fun text =>
  if text = Node.importingA.text then ⟨Node.importingA, false⟩
  else if text = (Node.spaceFile Node.joinedSpace).text then ⟨Node.spaceFile Node.joinedSpace, false⟩
  else if text = (Node.spaceFile Node.mixedSpace).text then ⟨Node.spaceFile Node.mixedSpace, false⟩
  else ⟨Node.spaceFile Node.splitSpace, false⟩

def filesWithSpace (space : Node) : List InputFile :=
  [("A.cs", (Node.spaceFile space).text), ("U.cs", Node.importingA.text)]

def projectWithSpace (space : Node) : Project :=
  Project.ofFiles grammarOfSpaces (filesWithSpace space)

theorem respaced_files {space space' : Node}
    (h : SpaceEquivalent (Node.spaceFile space) (Node.spaceFile space'))
    (hspace : (grammarOfSpaces (Node.spaceFile space).text).root = Node.spaceFile space)
    (hspace' : (grammarOfSpaces (Node.spaceFile space').text).root = Node.spaceFile space') :
    List.Forall₂ (Respaced grammarOfSpaces) (filesWithSpace space) (filesWithSpace space') := by
  refine .cons ⟨rfl, ?_⟩ (.cons ⟨rfl, .refl _⟩ .nil)
  rwa [← hspace, ← hspace'] at h

theorem mixedSpace_equivalent_splitSpace :
    SpaceEquivalent (Node.spaceFile Node.mixedSpace) (Node.spaceFile Node.splitSpace) :=
  Node.spaceEquivalent_files Node.splitBeforeB ⟨rfl, rfl⟩

/-- With `A.B` declared around `C`, all is as it is with a namespace for each of them. -/
theorem splitSpace_indexed :
    (∃ names, (projectWithSpace Node.splitSpace).declaredIn? "A" = some names ∧ "B" ∈ names) ∧
      (∃ names, (projectWithSpace Node.mixedSpace).declaredIn? "A" = some names ∧ "B" ∈ names) ∧
      ((projectWithSpace Node.mixedSpace).reportedImports {}).Perm
        ((projectWithSpace Node.splitSpace).reportedImports {}) := by
  obtain ⟨hsplit, hsplitComplete, hsingle, -⟩ :=
    namespaces_indexed grammarOfSpaces (filesWithSpace Node.splitSpace)
  obtain ⟨hmixed, hmixedComplete, -, hrespaced⟩ :=
    namespaces_indexed grammarOfSpaces (filesWithSpace Node.mixedSpace)
  have hsplitDeclared : (projectWithSpace Node.splitSpace).ParentsDeclared := by
    have hnames : ∀ file ∈ filesWithSpace Node.splitSpace,
        (grammarOfSpaces file.2).root.SingleNames := by decide
    exact hsingle fun file hfile _ => hnames file hfile
  have hmixedDeclared : (projectWithSpace Node.mixedSpace).ParentsDeclared := by decide
  have hparts : ∀ name ∈ ["A", "B", "C"], '.' ∉ name.toList := by decide
  have hone : 0 < 1 ∧ 1 < ["A", "B", "C"].length := by decide
  have hfiles := respaced_files mixedSpace_equivalent_splitSpace rfl rfl
  refine ⟨?_, ?_, (hrespaced _ hfiles).2.2 {} fun _ _ u _ _ => ?_⟩
  · exact (hsplit ["A", "B", "C"] hparts (by decide) 1 hone.1 hone.2).2 hsplitDeclared
  · exact (hmixed ["A", "B", "C"] hparts (by decide) 1 hone.1 hone.2).2 hmixedDeclared
  · exact ⟨hmixedComplete hmixedDeclared u.path, hsplitComplete hsplitDeclared u.path⟩

/-- Of a namespace that is declared by its full name alone, only the last part is in the index, so that
a directive for the first one is not reported. With a namespace for each part it is. -/
theorem joinedSpace_not_indexed :
    (projectWithSpace Node.joinedSpace).DeclaresSpace "A.B.C" ∧
      (projectWithSpace Node.joinedSpace).declaredIn? "A" = none ∧
      List.Forall₂ (Respaced grammarOfSpaces) (filesWithSpace Node.joinedSpace)
        (filesWithSpace Node.splitSpace) ∧
      (projectWithSpace Node.splitSpace).declaredIn? "A" = some ["B"] ∧
      (projectWithSpace Node.joinedSpace).reportedImports {} = [] ∧
      (projectWithSpace Node.splitSpace).reportedImports {} = [("A", "U.cs")] := by
  have hequivalent : SpaceEquivalent (Node.spaceFile Node.joinedSpace)
      (Node.spaceFile Node.splitSpace) :=
    .trans _ _ _ (Node.spaceEquivalent_files Node.splitBeforeC ⟨rfl, rfl⟩)
      mixedSpace_equivalent_splitSpace
  refine ⟨by decide, by decide, respaced_files hequivalent rfl rfl, by decide, ?_, ?_⟩
  · have hnone := (projectWithSpace Node.joinedSpace).reportedImports_perm {}
    exact List.perm_nil.mp (hnone.trans (List.Perm.of_eq (by decide)))
  · have hone := (projectWithSpace Node.splitSpace).reportedImports_perm {}
    exact List.perm_singleton.mp (hone.trans (List.Perm.of_eq (by decide)))

end CodeSmell
