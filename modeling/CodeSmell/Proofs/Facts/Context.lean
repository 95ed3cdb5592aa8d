import CodeSmell.Proofs.Facts.Tour
import CodeSmell.Proofs.Syntax.WellFormed

/-!
# What is around a declaration

* `dotJoin` : names joined by dots;
* `blockNames`, `typeNames`, `Node.fileNamespaceName?` : the names of the namespaces and types around
  a place, and the name that a node gives to the namespace of the rest of its file;
* `context` : the namespace and the types around a place, from these names alone;
* `scopeAmong` : the scope that a walk passes to the parts of a node (`innerScope?_scopeAmong`,
  `here_scopeAmong`); `tour_eq_visits` says that a walk makes each visit in it;
* `walk_declarations` : each declaration of a file has the context of the place that makes it;
  `declarations_have_lexical_context` says it of a file without a namespace for the rest of it.

A namespace for the rest of the file is taken to stand in no type and in no other namespace
(`FileNamespacesOutside`), which is how the grammar has it.
-/

namespace CodeSmell

open Syntax

/-! ## Names -/

/-- Names joined by dots, or nothing if there are none. -/
def dotJoin (names : List String) : Option String :=
  if names.isEmpty then none else some (".".intercalate names)

theorem dotJoin_append (outer : List String) {inner : List String} (h : inner ≠ []) :
    dotJoin (outer ++ inner) = some (dotted (dotJoin outer) (".".intercalate inner)) := by
  cases outer with
  | nil =>
    rw [List.nil_append, dotJoin, if_neg (by simpa using h)]
    rfl
  | cons name rest =>
    rw [dotJoin, if_neg (by simp),
      String.intercalate_append_of_ne_nil (List.cons_ne_nil name rest) h]
    rfl

theorem dotJoin_append_singleton (names : List String) (name : String) :
    dotJoin (names ++ [name]) = some (dotted (dotJoin names) name) := by
  rw [dotJoin_append names (List.cons_ne_nil name []), String.intercalate_singleton]

theorem dotJoin_eq_none_iff {names : List String} : dotJoin names = none ↔ names = [] := by
  cases names with
  | nil => exact iff_of_true rfl rfl
  | cons name rest => exact iff_of_false nofun nofun

namespace Syntax

namespace Node

def isTypeDeclaration (n : Node) : Bool :=
  match n.construct with
  | .typeDeclaration _ => true
  | _ => false

/-- Whether a node is a namespace, with a body or for the rest of the file. -/
def isNamespace (n : Node) : Bool :=
  n.construct == .namespaceBlock || n.construct == .fileNamespace

/-- Whether a node changes what is around its parts. -/
def isFrame (n : Node) : Bool :=
  n.isTypeDeclaration || n.isNamespace

def writtenName? (n : Node) : Option String :=
  (n.childByField? "name").map (·.text)

def compactName? (n : Node) : Option String :=
  n.writtenName?.map Text.compact

def typeName? (n : Node) : Option String :=
  if n.isTypeDeclaration then n.writtenName? else none

def blockName? (n : Node) : Option String :=
  if n.construct == .namespaceBlock then n.compactName? else none

def fileNamespaceName? (n : Node) : Option String :=
  if n.construct == .fileNamespace then n.compactName? else none

theorem openedNamespace_dotJoin (n : Node) (names : List String) :
    n.openedNamespace (dotJoin names) = dotJoin (names ++ n.compactName?.toList) := by
  unfold openedNamespace compactName? writtenName?
  cases n.childByField? "name" with
  | none => simp
  | some name => exact (dotJoin_append_singleton names _).symm

theorem innerContainer_dotJoin (n : Node) (names : List String) :
    n.innerContainer (dotJoin names) = dotJoin (names ++ n.writtenName?.toList) := by
  unfold innerContainer writtenName?
  cases n.childByField? "name" with
  | none => simp
  | some name => exact (dotJoin_append_singleton names _).symm

end Node

/-- The names of the namespaces with a body among the nodes around a place, from the outermost. -/
def blockNames (around : List Node) : List String :=
  around.reverse.filterMap (·.blockName?)

/-- The names of the types around a place that are inside the nearest namespace around it, from
the outermost. -/
def typeNames (around : List Node) : List String :=
  (around.takeWhile (!·.isNamespace)).reverse.filterMap (·.typeName?)

theorem blockNames_cons (n : Node) (around : List Node) :
    blockNames (n :: around) = blockNames around ++ n.blockName?.toList := by
  rw [blockNames, List.reverse_cons, List.filterMap_append, List.filterMap_cons]
  cases n.blockName? <;> rfl

theorem typeNames_cons_of_isNamespace {n : Node} (h : n.isNamespace = true) (around : List Node) :
    typeNames (n :: around) = [] := by
  rw [typeNames, List.takeWhile_cons_of_neg (by rw [h]; decide)]
  rfl

theorem typeNames_cons {n : Node} (h : n.isNamespace = false) (around : List Node) :
    typeNames (n :: around) = typeNames around ++ n.typeName?.toList := by
  rw [typeNames, List.takeWhile_cons_of_pos (by rw [h]; rfl), List.reverse_cons,
    List.filterMap_append, List.filterMap_cons]
  cases n.typeName? <;> rfl

theorem blockNames_eq_nil {around : List Node} (h : ∀ a ∈ around, a.isFrame = false) :
    blockNames around = [] := by
  apply List.filterMap_eq_nil_iff.mpr
  intro a ha
  have hframe := h a (List.mem_reverse.mp ha)
  unfold Node.isFrame Node.isNamespace at hframe
  unfold Node.blockName?
  split
  · next hblock => rw [hblock] at hframe; simp at hframe
  · rfl

/-- What is around a place in a file that has given itself the namespaces `names`. -/
def context (names : List String) (around : List Node) : Scope :=
  ⟨dotJoin (names ++ blockNames around), dotJoin (typeNames around)⟩

/-! ## One step of a walk -/

/-- What a walk keeps about the nodes around: the namespace only once it can no longer change. -/
def scopeAmong (names : List String) (around : List Node) : Scope :=
  ⟨if around.any (·.isFrame) then dotJoin (names ++ blockNames around) else none,
    dotJoin (typeNames around)⟩

/-- Outside all types and namespaces it does not matter which namespaces the file has given itself
so far; inside, the file gives itself no others. -/
theorem scopeAmong_congr {names more : List String} {around : List Node}
    (h : (∃ a ∈ around, a.isFrame = true) → more = names) :
    scopeAmong more around = scopeAmong names around := by
  unfold scopeAmong
  split
  · next hframe => rw [h (List.any_eq_true.mp hframe)]
  · rfl

theorem scopeAmong_cons {n : Node} (h : n.isFrame = false) (names : List String)
    (around : List Node) : scopeAmong names (n :: around) = scopeAmong names around := by
  obtain ⟨htype, hnamespace⟩ := Bool.or_eq_false_iff.mp h
  have hblock : n.blockName? = none :=
    if_neg (Bool.eq_false_iff.mp (Bool.or_eq_false_iff.mp hnamespace).1)
  have hname : n.typeName? = none := if_neg (Bool.eq_false_iff.mp htype)
  rw [scopeAmong, List.any_cons, h, Bool.false_or, blockNames_cons, hblock,
    typeNames_cons hnamespace, hname, Option.toList_none, List.append_nil, List.append_nil]
  rfl

theorem scopeAmong_cons_of_isFrame {n : Node} (h : n.isFrame = true) (names : List String)
    (around : List Node) : scopeAmong names (n :: around) = context names (n :: around) := by
  rw [scopeAmong, List.any_cons, h, Bool.true_or, if_pos rfl]
  rfl

namespace Node

theorem isFrame_cases {n : Node} (h : n.isFrame = true) :
    (∃ kind, n.construct = .typeDeclaration kind) ∨ n.construct = .namespaceBlock ∨
      n.construct = .fileNamespace := by
  rcases Bool.or_eq_true_iff.mp h with htype | hnamespace
  · unfold isTypeDeclaration at htype
    split at htype
    · next kind hconstruct => exact .inl ⟨kind, hconstruct⟩
    · cases htype
  · rcases Bool.or_eq_true_iff.mp hnamespace with hblock | hfile
    · exact .inr (.inl (eq_of_beq hblock))
    · exact .inr (.inr (eq_of_beq hfile))

theorem innerScope?_of_not_isFrame {n : Node} (h : n.isFrame = false)
    (hopen : n.isClosed = false) (scope : Scope) (outer : Option String) :
    n.innerScope? scope outer = some scope := by
  unfold isFrame isTypeDeclaration isNamespace at h
  unfold isClosed at hopen
  unfold innerScope?
  cases hconstruct : n.construct <;> rw [hconstruct] at h hopen <;> simp_all

end Node

/-- A namespace for the rest of the file stands in no type and in no other namespace. -/
def Place.FileNamespaceOutside (v : Place) : Prop :=
  v.node.construct = .fileNamespace → ∀ a ∈ v.ancestors, a.isFrame = false

instance (v : Place) : Decidable v.FileNamespaceOutside :=
  inferInstanceAs (Decidable (_ → _))

def Node.FileNamespacesOutside (root : Node) : Prop :=
  ∀ v ∈ root.visible, v.FileNamespaceOutside

instance (root : Node) : Decidable root.FileNamespacesOutside :=
  inferInstanceAs (Decidable (∀ v ∈ root.visible, v.FileNamespaceOutside))

/-- The parts of a node that is not closed are visited in the scope for them. -/
theorem Node.innerScope?_scopeAmong {n : Node} {around : List Node} (names : List String)
    (hopen : n.isClosed = false) (hout : Place.FileNamespaceOutside ⟨n, around⟩) :
    n.innerScope? (scopeAmong names around) (context names around).inNamespace =
      some (scopeAmong (names ++ n.fileNamespaceName?.toList) (n :: around)) := by
  cases hframe : n.isFrame with
  | false =>
    have hfile : n.fileNamespaceName? = none :=
      if_neg (Bool.eq_false_iff.mp (Bool.or_eq_false_iff.mp (Bool.or_eq_false_iff.mp hframe).2).2)
    rw [innerScope?_of_not_isFrame hframe hopen, hfile, Option.toList_none, List.append_nil,
      scopeAmong_cons hframe]
  | true =>
    rw [scopeAmong_cons_of_isFrame hframe]
    change _ = some (Scope.mk (dotJoin (_ ++ blockNames (n :: around)))
      (dotJoin (typeNames (n :: around))))
    rw [blockNames_cons]
    unfold innerScope? fileNamespaceName? blockName?
    rcases isFrame_cases hframe with ⟨kind, hconstruct⟩ | hconstruct | hconstruct
    · have hnamespace : n.isNamespace = false := by rw [isNamespace, hconstruct]; rfl
      have hname : n.typeName? = n.writtenName? :=
        if_pos (by rw [isTypeDeclaration, hconstruct])
      rw [typeNames_cons hnamespace, hname, ← innerContainer_dotJoin, hconstruct]
      simp [context, scopeAmong]
    · have hnamespace : n.isNamespace = true := by rw [isNamespace, hconstruct]; rfl
      rw [typeNames_cons_of_isNamespace hnamespace, context, openedNamespace_dotJoin, hconstruct]
      simp [dotJoin]
    · have hnamespace : n.isNamespace = true := by rw [isNamespace, hconstruct]; rfl
      rw [typeNames_cons_of_isNamespace hnamespace, context, openedNamespace_dotJoin,
        blockNames_eq_nil (hout hconstruct), hconstruct]
      simp [dotJoin]

end Syntax

namespace Findings

/-- The namespace in force where a node is visited is the one around it. -/
theorem here_scopeAmong {f : Findings} {names : List String}
    (h : f.fileNamespace = dotJoin names) (n : Node) (around : List Node) :
    f.here ⟨n, around, scopeAmong names around⟩ = context names around := by
  have hnamespace : f.namespaceAt (scopeAmong names around) =
      dotJoin (names ++ blockNames around) := by
    unfold namespaceAt scopeAmong
    rw [h]
    split
    · cases hjoin : dotJoin (names ++ blockNames around) with
      | none =>
        rw [dotJoin_eq_none_iff, List.append_eq_nil_iff] at hjoin
        rw [hjoin.1]
        rfl
      | some joined => rfl
    · next hframe =>
      rw [blockNames_eq_nil, List.append_nil]
      · rfl
      · exact fun a ha => Bool.eq_false_iff.mpr fun hf => hframe (List.any_eq_true.mpr ⟨a, ha, hf⟩)
  rw [here, hnamespace]
  rfl

/-- A visit keeps the names of the namespaces that the file has given itself. -/
theorem visit_fileNamespace {f : Findings} {names : List String} {n : Node} {around : List Node}
    (h : f.fileNamespace = dotJoin names) (hout : Place.FileNamespaceOutside ⟨n, around⟩) :
    (f.visit ⟨n, around, scopeAmong names around⟩).fileNamespace =
      dotJoin (names ++ n.fileNamespaceName?.toList) := by
  have hhere : f.namespaceAt (scopeAmong names around) = dotJoin (names ++ blockNames around) :=
    congrArg Scope.inNamespace (here_scopeAmong h n around)
  change (if n.construct == .fileNamespace then n.openedNamespace (f.namespaceAt _)
    else f.fileNamespace) = _
  unfold Node.fileNamespaceName?
  split
  · next hfile =>
    rw [hhere, blockNames_eq_nil (hout (eq_of_beq hfile)), List.append_nil,
      n.openedNamespace_dotJoin]
  · rw [h, Option.toList_none, List.append_nil]

/-! ## A whole walk -/

/-- The visits to some places, each in the scope that the names before it give. -/
def visitsFrom (names : List String) : List Place → List Pending
  | [] => []
  | v :: rest =>
    ⟨v.node, v.ancestors, scopeAmong names v.ancestors⟩ ::
      visitsFrom (names ++ v.node.fileNamespaceName?.toList) rest

/-- The names that some places give to the namespace of the rest of the file. -/
def fileNames (vs : List Place) : List String :=
  vs.flatMap (·.node.fileNamespaceName?.toList)

theorem fileNames_cons (v : Place) (rest : List Place) :
    fileNames (v :: rest) = v.node.fileNamespaceName?.toList ++ fileNames rest :=
  List.flatMap_cons

theorem visitsFrom_append (names : List String) (vs ws : List Place) :
    visitsFrom names (vs ++ ws) = visitsFrom names vs ++ visitsFrom (names ++ fileNames vs) ws := by
  induction vs generalizing names with
  | nil => simp [visitsFrom, fileNames]
  | cons v rest ih =>
    rw [List.cons_append, visitsFrom, ih, visitsFrom, List.cons_append, fileNames_cons,
      ← List.append_assoc]

theorem visits_fileNamespace {f : Findings} {names : List String} {vs : List Place}
    (h : f.fileNamespace = dotJoin names) (hout : ∀ v ∈ vs, v.FileNamespaceOutside) :
    ((visitsFrom names vs).foldl visit f).fileNamespace = dotJoin (names ++ fileNames vs) := by
  induction vs generalizing f names with
  | nil => rw [fileNames, List.flatMap_nil, List.append_nil]; exact h
  | cons v rest ih =>
    obtain ⟨hv, hrest⟩ := List.forall_mem_cons.mp hout
    rw [visitsFrom, List.foldl_cons, ih (visit_fileNamespace h hv) hrest, List.append_assoc]
    rfl

/-- Inside a type or a namespace nothing names the namespace of the rest of the file. -/
theorem fileNames_eq_nil {vs : List Place} {around : List Node}
    (hframe : ∃ a ∈ around, a.isFrame = true) (hsuffix : ∀ v ∈ vs, around <:+ v.ancestors)
    (hout : ∀ v ∈ vs, v.FileNamespaceOutside) : fileNames vs = [] := by
  obtain ⟨a, ha, hframe⟩ := hframe
  apply List.flatMap_eq_nil_iff.mpr
  intro v hv
  have hother : v.node.fileNamespaceName? = none := by
    apply if_neg
    intro hfile
    have := hout v hv (eq_of_beq hfile) a ((hsuffix v hv).subset ha)
    rw [hframe] at this
    cases this
  rw [hother]
  rfl

/-- A tour makes each of its visits in the scope for the place. -/
theorem tour_eq_visits {f : Findings} {names : List String} {around : List Node} {n : Node}
    (h : f.fileNamespace = dotJoin names) (hopen : ∀ a ∈ around, a.isClosed = false)
    (hout : ∀ v ∈ n.visibleFrom around, v.FileNamespaceOutside) :
    f.tour around (scopeAmong names around) n =
      (visitsFrom names (n.visibleFrom around)).foldl visit f := by
  induction n using Node.parts_induction generalizing f names around with
  | step n ih =>
    have hhere : f.namespaceAt (scopeAmong names around) = (context names around).inNamespace :=
      congrArg Scope.inNamespace (here_scopeAmong h n around)
    rw [Node.visibleFrom_eq hopen] at hout ⊢
    obtain ⟨hself, hparts⟩ := List.forall_mem_cons.mp hout
    rw [tour_eq, hhere, visitsFrom, List.foldl_cons]
    cases hclosed : n.isClosed with
    | true =>
      rw [(n.innerScope?_eq_none_iff _ _).mpr hclosed, if_pos rfl]
      rfl
    | false =>
      rw [Node.innerScope?_scopeAmong names hclosed hself, if_neg (by decide)]
      rw [hclosed, if_neg (by decide)] at hparts
      have hopen' : ∀ a ∈ n :: around, a.isClosed = false :=
        List.forall_mem_cons.mpr ⟨hclosed, hopen⟩
      -- the same for a row of parts, whatever names the parts before it have given
      have hall : ∀ cs ⊆ n.children, ∀ (f : Findings) (more : List String),
          f.fileNamespace = dotJoin more →
          f.tourAll (n :: around) (scopeAmong more (n :: around)) cs =
            (visitsFrom more (cs.flatMap (Node.visibleFrom (n :: around)))).foldl visit f := by
        intro cs
        induction cs with
        | nil => exact fun _ f more _ => rfl
        | cons c rest ihrest =>
          intro hsub f more hfile
          have hc : ∀ v ∈ c.visibleFrom (n :: around), v.FileNamespaceOutside := fun v hv =>
            hparts v (List.mem_flatMap.mpr ⟨c, hsub List.mem_cons_self, hv⟩)
          have hscope : scopeAmong (more ++ fileNames (c.visibleFrom (n :: around))) (n :: around) =
              scopeAmong more (n :: around) := by
            apply scopeAmong_congr
            intro hframe
            rw [fileNames_eq_nil hframe (fun v hv => ?_) hc, List.append_nil]
            exact Node.suffix_ancestors (List.mem_filter.mp hv).1
          rw [tourAll, ih c (hsub List.mem_cons_self) hfile hopen' hc, List.flatMap_cons,
            visitsFrom_append, List.foldl_append, ← hscope]
          exact ihrest (fun d hd => hsub (List.mem_cons_of_mem c hd)) _ _
            (visits_fileNamespace hfile hc)
      exact hall n.children (List.Subset.refl _) _ _ (visit_fileNamespace h hself)

def declarationsFrom (names : List String) : List Place → List Declaration
  | [] => []
  | v :: rest =>
    v.declarations (context names v.ancestors) ++
      declarationsFrom (names ++ v.node.fileNamespaceName?.toList) rest

theorem declarationsFrom_append (names : List String) (vs ws : List Place) :
    declarationsFrom names (vs ++ ws) =
      declarationsFrom names vs ++ declarationsFrom (names ++ fileNames vs) ws := by
  induction vs generalizing names with
  | nil => simp [declarationsFrom, fileNames]
  | cons v rest ih =>
    rw [List.cons_append, declarationsFrom, ih, declarationsFrom, fileNames_cons,
      ← List.append_assoc names, List.append_assoc (v.declarations _)]

/-- Where the file does not give itself a namespace, all declarations stand in the same ones. -/
theorem declarationsFrom_eq_flatMap {vs : List Place} (h : fileNames vs = [])
    (names : List String) :
    declarationsFrom names vs = vs.flatMap fun v => v.declarations (context names v.ancestors) := by
  induction vs with
  | nil => rfl
  | cons v rest ih =>
    rw [fileNames_cons, List.append_eq_nil_iff] at h
    rw [declarationsFrom, h.1, List.append_nil, ih h.2, List.flatMap_cons]

theorem visits_declarations {f : Findings} {names : List String} {vs : List Place}
    (h : f.fileNamespace = dotJoin names) (hout : ∀ v ∈ vs, v.FileNamespaceOutside) :
    ((visitsFrom names vs).foldl visit f).declarations.toList =
      f.declarations.toList ++ declarationsFrom names vs := by
  induction vs generalizing f names with
  | nil => rw [declarationsFrom, List.append_nil]; rfl
  | cons v rest ih =>
    obtain ⟨hv, hrest⟩ := List.forall_mem_cons.mp hout
    rw [visitsFrom, List.foldl_cons, ih (visit_fileNamespace h hv) hrest, visit_declarations,
      here_scopeAmong h, List.append_assoc]
    rfl

/-- Each declaration that a walk records stands where its place does. -/
theorem walk_declarations {root : Node} (h : root.FileNamespacesOutside) :
    (walk root).declarations.toList = declarationsFrom [] root.visible := by
  have htour : ({} : Findings).tour [] (scopeAmong [] []) root =
      (visitsFrom [] root.visible).foldl visit {} :=
    tour_eq_visits rfl (fun a ha => absurd ha List.not_mem_nil) h
  rw [walk_eq_tour]
  exact (congrArg (·.declarations.toList) htour).trans (visits_declarations rfl h)

end Findings

/-- **Declarations stand where the tree has them.** In a file that gives itself no namespace, the
declarations other than namespaces are those that the visible places make, each in the namespace
that the blocks around it name and in the types inside the nearest of these; and each visible block
with a name declares its namespace once, under the names of the blocks around it and its own. -/
theorem declarations_have_lexical_context (path : String) (tree : Tree)
    (h : ∀ v ∈ tree.root.places, v.node.construct ≠ .fileNamespace) :
    ((Facts.ofTree path tree).declarations.filter (·.kind != .namespaceName) =
        tree.root.visible.flatMap fun v =>
          (v.node.introduced v.ancestors).map
            (·.declaration ⟨dotJoin (blockNames v.ancestors), dotJoin (typeNames v.ancestors)⟩)) ∧
      (Facts.ofTree path tree).declarations.filter (·.kind == .namespaceName) =
        tree.root.visible.filterMap fun v =>
          v.node.namespaceName?.map fun name =>
            { name := ".".intercalate (blockNames v.ancestors ++ [Text.compact name.text])
              kind := .namespaceName
              position := name.position
              inNamespace := none
              container := none
              isOverride := false
              isExtension := false
              statements := none } := by
  have hvisible : ∀ v ∈ tree.root.visible, v.node.construct ≠ .fileNamespace := fun v hv =>
    h v (Node.mem_visible.mp hv).1
  have hnames : Findings.fileNames tree.root.visible = [] := by
    apply List.flatMap_eq_nil_iff.mpr
    intro v hv
    rw [Node.fileNamespaceName?, if_neg (by simpa using hvisible v hv)]
    rfl
  have hwalk : (Facts.ofTree path tree).declarations =
      tree.root.visible.flatMap fun v => v.declarations (context [] v.ancestors) :=
    (Findings.walk_declarations fun v hv hfile => absurd hfile (hvisible v hv)).trans
      (Findings.declarationsFrom_eq_flatMap hnames [])
  rw [hwalk, List.filter_flatMap, List.filter_flatMap, List.filterMap_eq_flatMap_toList]
  constructor
  · congr 1
    funext v
    exact v.declarations_without_namespace _
  · congr 1
    funext v
    rw [v.declarations_of_namespace, Node.namespaceDeclaration?]
    cases v.node.namespaceName? with
    | none => rfl
    | some name =>
      have hname : some (dotted (dotJoin (blockNames v.ancestors)) (Text.compact name.text)) =
          some (".".intercalate (blockNames v.ancestors ++ [Text.compact name.text])) := by
        rw [← dotJoin_append_singleton, dotJoin, if_neg (by simp)]
      rw [context, List.nil_append, Option.map_some, Option.some.inj hname]
      rfl

/-- A class `C` in a class `A` in a namespace `O` in the namespace `N.M`. -/
def Syntax.Node.nesting : Node :=
  phrase "compilation_unit" none
    [phrase "namespace_declaration" none
      [token 0 "namespace", dottedName (some "name") 10,
        body 14
          [phrase "namespace_declaration" none
            [token 16 "namespace", word (some "name") 26 "O",
              body 28
                [phrase "class_declaration" none
                  [token 30 "class", word (some "name") 36 "A",
                    body 38
                      [fieldOfA 40 "b",
                        phrase "class_declaration" none
                          [token 45 "class", word (some "name") 51 "C",
                            body 53 [fieldOfA 55 "d"] 60]]
                      62]]
                64]]
          66]]

theorem nesting_lexical_context :
    (∀ v ∈ Node.nesting.places, v.node.construct ≠ .fileNamespace) ∧
      (((Facts.ofTree "Nested.cs" ⟨Node.nesting, false⟩).declarations.filter
          (·.kind != .namespaceName)).map fun d => (d.name, d.inNamespace, d.container)) =
        [("A", some "N.M.O", none), ("b", some "N.M.O", some "A"), ("C", some "N.M.O", some "A"),
          ("d", some "N.M.O", some "A.C")] ∧
      ((Facts.ofTree "Nested.cs" ⟨Node.nesting, false⟩).declarations.filter
          (·.kind == .namespaceName)).map (·.name) = ["N.M", "N.M.O"] := by
  have hblocks : ∀ v ∈ Node.nesting.places, v.node.construct ≠ .fileNamespace := by decide
  obtain ⟨hdeclarations, hnamespaces⟩ :=
    declarations_have_lexical_context "Nested.cs" ⟨Node.nesting, false⟩ hblocks
  refine ⟨hblocks, ?_, ?_⟩
  · rw [hdeclarations]
    decide
  · rw [hnamespaces]
    decide

end CodeSmell
