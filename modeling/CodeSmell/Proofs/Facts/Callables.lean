import CodeSmell.Proofs.Project.Verdicts
import CodeSmell.Proofs.Facts.Tour
import CodeSmell.Scan.Check
import Mathlib.Data.List.TakeWhile

/-!
# Callables and the statements in their bodies

* `Place.callable?` : the callable that a node declares, by the route that its kind takes to a name;
  no node declares more than one (`filter_introduced`);
* `Node.statementsInBody` : the statements directly in the body of a node, and nothing below them
  (`statementsInBody_congr`);
* `Node.callables` : the callables of a tree, as a walk comes to them; a file records these and no
  others (`callables_unplaced`);
* `longMethods_filter` : with a higher threshold, what is still long of what was long before;
* `long_methods_by_body` : these together.
-/

namespace CodeSmell

open Syntax

/-! ## Callables -/

theorem Construct.isCallable_of_typeDeclaration {kind : String} {k : DeclarationKind}
    (h : Construct.ofKind kind = .typeDeclaration k) : k.isCallable = false := by
  unfold Construct.ofKind at h
  split at h <;> cases h <;> rfl

namespace Syntax

namespace Node

def callableKind? (n : Node) : Option DeclarationKind :=
  match n.construct with
  | .declaration kind => if kind.isCallable then some kind else none
  | .operator | .conversion => some .operator
  | .accessor => some .accessor
  | _ => none

/-- The node that a callable is declared at: the keyword of an operator, the name or the word of an
accessor, and the name of any other. -/
def callableSite? (n : Node) : Option Node :=
  match n.construct with
  | .operator | .conversion => n.childOfKind? "operator"
  | .accessor => n.childByField? "name" <|> n.children.find? (accessorWords.contains ·.kind)
  | _ => n.childByField? "name"

theorem operator_eq (n : Node) :
    n.operator = (n.childOfKind? "operator").toList.map fun site =>
      ⟨n, site, (n.operator.head?.map (·.name)).getD "", .operator⟩ := by
  have hfind : n.childOfKind? "operator" = (n.children.dropWhile (·.kind != "operator")).head? :=
    List.find?_eq_head?_dropWhile_not _ _
  rw [hfind]
  unfold operator
  cases n.children.dropWhile (·.kind != "operator") <;> rfl

theorem accessor_eq (n : Node) (around : List Node) :
    n.accessor around =
      (n.childByField? "name" <|> n.children.find? (accessorWords.contains ·.kind)).toList.map
        fun site => ⟨n, site, ((n.accessor around).head?.map (·.name)).getD "", .accessor⟩ := by
  unfold accessor
  cases n.childByField? "name" <|> n.children.find? (accessorWords.contains ·.kind) <;> rfl

end Node

namespace Place

/-- The name of a callable: what stands where it is declared, unless the name is made up. -/
def callableName (v : Place) (site : Node) : String :=
  match v.node.construct with
  | .declaration _ => site.text
  | _ => ((v.node.introduced v.ancestors).head?.map (·.name)).getD ""

def callable? (v : Place) : Option Introduction :=
  v.node.callableKind?.bind fun kind =>
    v.node.callableSite?.map fun site => ⟨v.node, site, v.callableName site, kind⟩

theorem filter_named (n : Node) {kind : DeclarationKind} (h : kind.isCallable = false)
    (sites : List Node) :
    (sites.map (Introduction.named n kind)).filter (·.kind.isCallable) = [] := by
  apply List.filter_eq_nil_iff.mpr
  intro i hi
  obtain ⟨site, -, rfl⟩ := List.mem_map.mp hi
  simp [Introduction.named, h]

theorem filter_variables (n : Node) (parent : Option Node) :
    (n.variableIntroductions parent).filter (·.kind.isCallable) = [] := by
  unfold Node.variableIntroductions
  apply filter_named
  split
  · split
    · split <;> rfl
    · split <;> rfl
  · rfl

theorem filter_loop (n : Node) : n.loopVariables.filter (·.kind.isCallable) = [] := by
  unfold Node.loopVariables
  split
  · exact filter_named n rfl _
  · rfl

/-- A node declares one callable at most, by the route for its kind. -/
theorem filter_introduced (v : Place) :
    (v.node.introduced v.ancestors).filter (·.kind.isCallable) = v.callable?.toList := by
  unfold callable? Node.callableKind? Node.callableSite? callableName Node.introduced
  cases hc : v.node.construct with
  | typeDeclaration kind =>
    exact filter_named v.node (Construct.isCallable_of_typeDeclaration hc) _
  | declaration kind =>
    dsimp only
    cases hcallable : kind.isCallable with
    | true =>
      unfold Node.byName
      cases v.node.childByField? "name" <;> simp [Introduction.named, hcallable]
    | false => exact filter_named v.node hcallable _
  | variableGroup => exact filter_variables v.node _
  | operator =>
    dsimp only
    rw [v.node.operator_eq]
    cases v.node.childOfKind? "operator" <;> rfl
  | conversion =>
    dsimp only
    rw [v.node.operator_eq]
    cases v.node.childOfKind? "operator" <;> rfl
  | accessor =>
    dsimp only
    rw [v.node.accessor_eq]
    cases v.node.childByField? "name" <|>
      v.node.children.find? (Node.accessorWords.contains ·.kind) <;> rfl
  | pattern => exact filter_named v.node rfl _
  | loop => exact filter_loop v.node
  | lambda => exact filter_named v.node rfl _
  | bareParameter => exact filter_named v.node rfl [v.node]
  | _ => rfl

theorem isCallable_of_callable? {v : Place} {c : Introduction} (h : v.callable? = some c) :
    c.kind.isCallable = true := by
  have hmem : c ∈ v.callable?.toList := Option.mem_toList.mpr h
  rw [← filter_introduced] at hmem
  exact (List.mem_filter.mp hmem).2

theorem filter_declarations (v : Place) (here : Scope) :
    (v.declarations here).filter (·.kind.isCallable) =
      v.callable?.toList.map (·.declaration here) := by
  have hnamespace : (v.node.namespaceDeclaration? here.inNamespace).toList.filter
      (·.kind.isCallable) = [] := by
    rw [List.filter_eq_nil_iff]
    intro d hd
    rw [namespaceDeclaration?_kind d (Option.mem_toList.mp hd)]
    decide
  rw [declarations, List.filter_append, hnamespace, List.append_nil, List.filter_map,
    ← filter_introduced]
  rfl

theorem owner_of_callable? {v : Place} {c : Introduction} (h : v.callable? = some c) :
    c.owner = v.node := by
  obtain ⟨kind, -, h⟩ := Option.bind_eq_some_iff.mp h
  obtain ⟨site, -, rfl⟩ := Option.map_eq_some_iff.mp h
  rfl

end Place

namespace Node

/-- The callables of a tree, in the order of the nodes that declare them. -/
def callables (root : Node) : List Introduction :=
  root.visible.filterMap (·.callable?)

/-! ## Bodies -/

/-- A part of a block that counts: it is named, and is neither a comment nor a line for the
preprocessor. -/
def Counts (c : Node) : Prop :=
  c.named = true ∧ c.kind ≠ "comment" ∧ ¬ "preproc".toList <+: c.kind.toList

instance (c : Node) : Decidable c.Counts :=
  inferInstanceAs (Decidable (_ ∧ _ ∧ _))

def statementsInBody (n : Node) : Nat :=
  match n.body? with
  | none => 0
  | some body =>
    if body.kind = "block" then (body.children.filter fun c => c.Counts).length
    else if body.kind = "arrow_expression_clause" then 1
    else 0

theorem isStatement_iff {c : Node} : c.isStatement = true ↔ c.Counts := by
  simp only [isStatement, Counts, Bool.and_eq_true, bne_iff_ne, Bool.not_eq_true', and_assoc,
    ← Bool.not_eq_true, List.isPrefixOf_iff_prefix, ne_eq]

theorem countP_isStatement (parts : List Node) :
    parts.countP isStatement = (parts.filter fun c => c.Counts).length := by
  rw [List.countP_eq_length_filter]
  refine congrArg List.length (List.filter_congr fun c _ => ?_)
  rw [Bool.eq_iff_iff, isStatement_iff, decide_eq_true_iff]

theorem getD_statements? (n : Node) : n.statements?.getD 0 = n.statementsInBody := by
  unfold statements? statementsInBody
  cases n.body? with
  | none => rfl
  | some body =>
    simp only [beq_iff_eq, countP_isStatement]
    split
    · rfl
    · split <;> rfl

/-- What stands inside the statements of a body does not count. -/
theorem statementsInBody_congr {n n' body body' : Node} (h : n.body? = some body)
    (h' : n'.body? = some body') (hkind : body.kind = body'.kind)
    (hparts : body.children.map (fun c => (c.kind, c.named)) =
      body'.children.map fun c => (c.kind, c.named)) :
    n.statementsInBody = n'.statementsInBody := by
  have hcount (parts : List Node) : (parts.filter fun c => c.Counts).length =
      (parts.map fun c => (c.kind, c.named)).countP fun c =>
        decide (c.2 = true ∧ c.1 ≠ "comment" ∧ ¬ "preproc".toList <+: c.1.toList) := by
    rw [List.countP_map, List.countP_eq_length_filter]
    rfl
  unfold statementsInBody
  rw [h, h']
  dsimp only
  rw [hkind, hcount, hcount, hparts]

end Node

end Syntax

/-! ## Reports -/

def Introduction.longMethod (c : Introduction) (file : String) : LongMethod where
  methodName := if c.kind = .destructor then "~" ++ c.name else c.name
  declaringFile := file
  startLine := c.site.line
  statementCount := c.owner.statementsInBody

/-- A file records the callables of its tree, in their order. -/
theorem callables_unplaced (path : String) (tree : Tree) :
    (Facts.ofTree path tree).callables.map Declaration.unplaced =
      tree.root.callables.map (·.declaration {}) := by
  have hwalk := Findings.walk_eq_flatMap
    (fun f => (f.declarations.toList.filter (·.kind.isCallable)).map Declaration.unplaced)
    (fun v => v.callable?.toList.map (·.declaration {})) rfl
    (fun f p => by
      rw [Findings.visit_declarations, List.filter_append, List.map_append,
        Place.filter_declarations, List.map_map]
      rfl)
    tree.root
  refine hwalk.trans ?_
  rw [Node.callables, List.filterMap_eq_flatMap_toList, List.map_flatMap]

theorem longMethods_eq_map (f : Facts) (threshold : Nat) :
    f.longMethods threshold =
      ((f.callables.map Declaration.unplaced).filter fun d => threshold ≤ d.statementCount).map
        fun d => ⟨d.callableName, f.path, d.position.line, d.statementCount⟩ := by
  rw [List.filter_map, List.map_map]
  rfl

theorem longMethods_eq_callables (path : String) (tree : Tree) (threshold : Nat) :
    (Facts.ofTree path tree).longMethods threshold =
      (tree.root.callables.filter fun c => threshold ≤ c.owner.statementsInBody).map
        (·.longMethod path) := by
  have hcount : ∀ c ∈ tree.root.callables,
      (c.declaration {}).statementCount = c.owner.statementsInBody := by
    intro c hc
    obtain ⟨v, -, hcallable⟩ := List.mem_filterMap.mp hc
    rw [Declaration.statementCount, Introduction.declaration,
      if_pos (Place.isCallable_of_callable? hcallable), Node.getD_statements?]
  rw [longMethods_eq_map, callables_unplaced, List.filter_map, List.map_map]
  have hlong : tree.root.callables.filter
        ((fun d => decide (threshold ≤ d.statementCount)) ∘ (·.declaration {})) =
      tree.root.callables.filter fun c => threshold ≤ c.owner.statementsInBody :=
    List.filter_congr fun c hc => by rw [Function.comp_apply, hcount c hc]
  rw [hlong]
  refine List.map_congr_left fun c hc => ?_
  rw [Function.comp_apply, hcount c (List.mem_of_mem_filter hc), Introduction.longMethod,
    Declaration.callableName]
  simp only [beq_iff_eq]
  rfl

/-! ## Thresholds -/

theorem Facts.longMethods_filter (f : Facts) {t t' : Nat} (h : t ≤ t') :
    f.longMethods t' = (f.longMethods t).filter fun m => t' ≤ m.statementCount := by
  unfold longMethods
  rw [List.filter_map, List.filter_filter]
  refine congrArg _ (List.filter_congr fun d _ => ?_)
  rw [Bool.eq_iff_iff]
  simp only [Function.comp_apply, Bool.and_eq_true, decide_eq_true_iff]
  omega

theorem Source.longMethods_filter (s : Source) {t t' : Nat} (h : t ≤ t') :
    s.longMethods t' = (s.longMethods t).filter fun m => t' ≤ m.statementCount := by
  unfold longMethods
  rw [List.filter_flatMap]
  exact List.flatMap_congr fun f _ => f.longMethods_filter h

theorem Loader.findLongMethods_filter (l : Loader) (fs : FileSystem) (path : String) {t t' : Nat}
    (h : t ≤ t') :
    l.findLongMethods fs path t' =
      (l.findLongMethods fs path t).filter fun m => t' ≤ m.statementCount := by
  unfold findLongMethods
  rw [List.filter_flatMap]
  exact List.flatMap_congr fun s _ => s.longMethods_filter h

def callableKinds : List DeclarationKind :=
  [.method, .constructor, .destructor, .localFunction, .operator, .accessor]

theorem DeclarationKind.isCallable_eq (kind : DeclarationKind) :
    kind.isCallable = decide (kind ∈ callableKinds) := by
  cases kind <;> rfl

/-- **Long methods, read off the tree.** In a file that is analyzed, the callables that are reported
are those with at least `threshold` statements directly in their bodies, in the order of the nodes
that declare them. A node declares one at most, and is the one whose body is counted. Whatever stands
inside the statements of a body does not count for it, so that a callable in the body of another adds
no more to that one than the statement that it is. With a higher threshold those of the report remain
that reach it, in a file and at a path. -/
theorem long_methods_by_body (grammar : Grammar) {file : InputFile}
    (h : isAnalyzed grammar file = true) :
    (∀ threshold, (Source.read grammar file.1 file.2).longMethods threshold =
        ((grammar file.2).root.callables.filter fun c =>
          threshold ≤ c.owner.statementsInBody).map (·.longMethod file.1)) ∧
      (∀ v : Place, (v.node.introduced v.ancestors).filter (·.kind ∈ callableKinds) =
          v.callable?.toList ∧ ∀ c ∈ v.callable?, c.owner = v.node) ∧
      (∀ n n' body body' : Node, n.body? = some body → n'.body? = some body' →
        body.kind = body'.kind →
        body.children.map (fun c => (c.kind, c.named)) =
          body'.children.map (fun c => (c.kind, c.named)) →
        n.statementsInBody = n'.statementsInBody) ∧
      ∀ t t', t ≤ t' →
        (∀ s : Source, s.longMethods t' = (s.longMethods t).filter (t' ≤ ·.statementCount)) ∧
          ∀ (l : Loader) (fs : FileSystem) (path : String), l.findLongMethods fs path t' =
            (l.findLongMethods fs path t).filter (t' ≤ ·.statementCount) := by
  refine ⟨fun threshold => ?_, fun v => ⟨?_, fun c hc => Place.owner_of_callable? hc⟩,
    fun n n' body body' hbody hbody' hkind hparts =>
      Node.statementsInBody_congr hbody hbody' hkind hparts,
    fun t t' hle => ⟨fun s => s.longMethods_filter hle,
      fun l fs path => l.findLongMethods_filter fs path hle⟩⟩
  · rw [Source.longMethods, read_facts, if_pos h, Option.toList_some, List.flatMap_singleton]
    exact longMethods_eq_callables file.1 (grammar file.2) threshold
  · simp only [← v.filter_introduced, DeclarationKind.isCallable_eq]

/-! ## A callable in another -/

namespace Syntax.Node

def emptyStatement (start : Nat) : Node :=
  phrase "empty_statement" none [token start ";"]

def comment (start : Nat) : Node :=
  ⟨"comment", true, none, start, start + 4, 1, "/**/", []⟩

/-- A callable of a one-letter name that gives nothing, with its body. The word `void` stands in a
field of its own in each kind of callable. -/
def procedure (kind result : String) (start : Nat) (name : String) (statements : List Node)
    (stop : Nat) : Node :=
  phrase kind none
    [predefinedType result start "void", word (some "name") (start + 5) name,
      phrase "parameter_list" (some "parameters") [token (start + 6) "(", token (start + 7) ")"],
      phrase "block" (some "body")
        (token (start + 9) "\x7b" :: statements ++ [token stop "\x7d"])]

/-- A class with a method `M` of two statements and a comment; the first statement is a function `L`
of three statements. -/
def nestedCallables : Node :=
  phrase "compilation_unit" none
    [phrase "class_declaration" none
      [token 0 "class", word (some "name") 6 "C",
        body 8
          [procedure "method_declaration" "returns" 10 "M"
            [procedure "local_function_statement" "type" 21 "L"
              [emptyStatement 32, emptyStatement 34, emptyStatement 36] 38,
              comment 40, emptyStatement 45] 47]
          49]]

end Syntax.Node

def nestedGrammar : Grammar :=
  fun _ => ⟨Node.nestedCallables, false⟩

theorem nestedCallables_long :
    isAnalyzed nestedGrammar ("C.cs", Node.nestedCallables.text) = true ∧
      (Source.read nestedGrammar "C.cs" Node.nestedCallables.text).longMethods 2 =
        [⟨"M", "C.cs", 1, 2⟩, ⟨"L", "C.cs", 1, 3⟩] ∧
      (Source.read nestedGrammar "C.cs" Node.nestedCallables.text).longMethods 3 =
        [⟨"L", "C.cs", 1, 3⟩] := by
  have hanalyzed : isAnalyzed nestedGrammar ("C.cs", Node.nestedCallables.text) = true := by decide
  obtain ⟨hreport, -, -, hthreshold⟩ := long_methods_by_body nestedGrammar hanalyzed
  have htwo : (Source.read nestedGrammar "C.cs" Node.nestedCallables.text).longMethods 2 =
      [⟨"M", "C.cs", 1, 2⟩, ⟨"L", "C.cs", 1, 3⟩] := (hreport 2).trans (by decide)
  refine ⟨hanalyzed, htwo, ?_⟩
  rw [(hthreshold 2 3 (by decide)).1, htwo]
  decide

end CodeSmell
