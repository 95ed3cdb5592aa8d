import CodeSmell.Proofs.Facts.Sites

/-!
# Trees in another place

* `Move` : where another text has what begins or ends at each byte of a text;
* `Node.moved` : a tree with all that begins and ends in it where a move has it. What is read off a node
  is read off the moved one, where it was moved to (`childByField?_moved`, `introduced_moved`, ...);
* `Declaration.adrift`, `UsingDirective.adrift` : what a file says, without where it says it. A move
  leaves that alone (`adrift_declaration_moved`, `adrift_using?_moved`).
-/

namespace CodeSmell

open Syntax

namespace Syntax

/-- Where another text has what begins and ends in a text, and on which line. What begins in different
places does so there as well. -/
structure Move where
  start : Nat → Nat
  stop : Nat → Nat
  line : Nat → Nat
  injective : ∀ {a b : Nat}, start a = start b → a = b

namespace Node

mutual

def moved (r : Move) : Node → Node
  | ⟨kind, named, field, start, stop, _, text, children⟩ =>
    ⟨kind, named, field, r.start start, r.stop stop, r.line start, text, movedAll r children⟩

def movedAll (r : Move) : List Node → List Node
  | [] => []
  | n :: rest => n.moved r :: movedAll r rest

end

section

variable (r : Move) (n : Node)

theorem movedAll_eq (ns : List Node) : movedAll r ns = ns.map (moved r) := by
  induction ns with
  | nil => rfl
  | cons n rest ih => rw [movedAll, ih, List.map_cons]

theorem children_moved : (n.moved r).children = n.children.map (moved r) := by
  rw [← movedAll_eq]
  cases n
  rfl

@[simp]
theorem kind_moved : (n.moved r).kind = n.kind := by
  cases n
  rfl

@[simp]
theorem named_moved : (n.moved r).named = n.named := by
  cases n
  rfl

@[simp]
theorem field_moved : (n.moved r).field = n.field := by
  cases n
  rfl

@[simp]
theorem text_moved : (n.moved r).text = n.text := by
  cases n
  rfl

@[simp]
theorem start_moved : (n.moved r).start = r.start n.start := by
  cases n
  rfl

@[simp]
theorem construct_moved : (n.moved r).construct = n.construct :=
  congrArg Construct.ofKind (n.kind_moved r)

@[simp]
theorem isIdentifier_moved : (n.moved r).isIdentifier = n.isIdentifier :=
  congrArg (· == "identifier") (n.kind_moved r)

@[simp]
theorem isGroup_moved : (n.moved r).isGroup = n.isGroup := by
  rw [isGroup, isGroup, kind_moved]

@[simp]
theorem isNumber_moved : (n.moved r).isNumber = n.isNumber := by
  rw [isNumber, isNumber, kind_moved]

@[simp]
theorem isStatement_moved : (n.moved r).isStatement = n.isStatement := by
  rw [isStatement, isStatement, kind_moved, named_moved]

end

/-! ## Ways to the parts -/

section

variable (r : Move) {p : Node → Bool} (h : ∀ c : Node, p (c.moved r) = p c) (ns : List Node)
include h

theorem find?_moved : (ns.map (moved r)).find? p = (ns.find? p).map (moved r) := by
  have hp : p ∘ moved r = p := funext h
  rw [List.find?_map, hp]

theorem filter_moved : (ns.map (moved r)).filter p = (ns.filter p).map (moved r) := by
  have hp : p ∘ moved r = p := funext h
  rw [List.filter_map, hp]

theorem any_moved : (ns.map (moved r)).any p = ns.any p := by
  have hp : p ∘ moved r = p := funext h
  rw [List.any_map, hp]

theorem countP_moved : (ns.map (moved r)).countP p = ns.countP p := by
  have hp : p ∘ moved r = p := funext h
  rw [List.countP_map, hp]

theorem takeWhile_moved : (ns.map (moved r)).takeWhile p = (ns.takeWhile p).map (moved r) := by
  have hp : p ∘ moved r = p := funext h
  rw [List.takeWhile_map, hp]

theorem dropWhile_moved : (ns.map (moved r)).dropWhile p = (ns.dropWhile p).map (moved r) := by
  have hp : p ∘ moved r = p := funext h
  rw [List.dropWhile_map, hp]

end

section

variable (r : Move) (n : Node)

theorem childByField?_moved (field : String) :
    (n.moved r).childByField? field = (n.childByField? field).map (moved r) := by
  rw [childByField?, children_moved, find?_moved r fun c => by rw [field_moved]]
  rfl

theorem namedChildren_moved : (n.moved r).namedChildren = n.namedChildren.map (moved r) := by
  rw [namedChildren, children_moved, filter_moved r fun c => c.named_moved r]
  rfl

theorem namedChildOfKind?_moved (kind : String) :
    (n.moved r).namedChildOfKind? kind = (n.namedChildOfKind? kind).map (moved r) := by
  rw [namedChildOfKind?, namedChildren_moved, find?_moved r fun c => by rw [kind_moved]]
  rfl

/-! ## Properties of declaring nodes -/

theorem body?_moved : (n.moved r).body? = n.body?.map (moved r) := by
  rw [body?, body?, childByField?_moved, children_moved, find?_moved r fun c => by rw [kind_moved]]
  cases n.childByField? "body" <;> rfl

theorem statements?_moved : (n.moved r).statements? = n.statements? := by
  rw [statements?, statements?, body?_moved]
  cases n.body? with
  | none => rfl
  | some body =>
    dsimp only [Option.map_some]
    rw [kind_moved, children_moved, countP_moved r (isStatement_moved r)]

theorem hasModifier_moved (word : String) : (n.moved r).hasModifier word = n.hasModifier word := by
  rw [hasModifier, children_moved, any_moved r fun c => by rw [kind_moved, text_moved]]
  rfl

theorem isExtensionMethod_moved : (n.moved r).isExtensionMethod = n.isExtensionMethod := by
  have hparameter : ((n.moved r).childByField? "parameters").bind (·.namedChildOfKind? "parameter") =
      ((n.childByField? "parameters").bind (·.namedChildOfKind? "parameter")).map (moved r) := by
    rw [childByField?_moved]
    cases n.childByField? "parameters" with
    | none => rfl
    | some parameters => exact parameters.namedChildOfKind?_moved r "parameter"
  rw [isExtensionMethod, isExtensionMethod, hparameter]
  cases (n.childByField? "parameters").bind (·.namedChildOfKind? "parameter") with
  | none => rfl
  | some parameter =>
    have hstart : ((parameter.moved r).childByField? "name").map (·.start) =
        ((parameter.childByField? "name").map (·.start)).map r.start := by
      rw [childByField?_moved]
      cases parameter.childByField? "name" with
      | none => rfl
      | some name => exact congrArg some (name.start_moved r)
    dsimp only [Option.map_some]
    rw [hstart, children_moved, List.any_map]
    refine congrArg (List.any _ ·) (funext fun c => ?_)
    -- the mark is told from the name by where it begins
    have hbegins : (some (r.start c.start) != ((parameter.childByField? "name").map (·.start)).map
        r.start) = (some c.start != (parameter.childByField? "name").map (·.start)) := by
      rw [Bool.eq_iff_iff, bne_iff_ne, bne_iff_ne, ← Option.map_some]
      exact not_congr (Option.map_injective (fun _ _ => r.injective)).eq_iff
    rw [Function.comp_apply, start_moved, text_moved, hbegins]

/-! ## Names -/

theorem designated_moved : (n.moved r).designated = n.designated.map (moved r) := by
  induction n using parts_induction with
  | step n ih =>
    rw [designated_eq, designated_eq, isIdentifier_moved, isGroup_moved, namedChildren_moved]
    split
    · rfl
    · split
      · rw [List.flatMap_map, List.map_flatMap]
        exact List.flatMap_congr fun c hc => ih c (mem_children_of_mem_namedChildren hc)
      · rfl

theorem identifiersUnder_moved : (n.moved r).identifiersUnder = n.identifiersUnder.map (moved r) := by
  induction n using parts_induction with
  | step n ih =>
    rw [identifiersUnder_eq, identifiersUnder_eq, isIdentifier_moved, namedChildren_moved]
    split
    · rfl
    · rw [List.flatMap_map, List.map_flatMap]
      exact List.flatMap_congr fun c hc => ih c (mem_children_of_mem_namedChildren hc)

theorem starts_moved (ns : List Node) :
    (ns.map (moved r)).map (·.start) = (ns.map (·.start)).map r.start := by
  rw [List.map_map, List.map_map]
  exact List.map_congr_left fun n _ => n.start_moved r

theorem map_orElse_moved (o o' : Option Node) :
    (o.map (moved r) <|> o'.map (moved r)) = (o <|> o').map (moved r) := by
  cases o <;> rfl

theorem filter_option_moved {p : Node → Bool} (h : ∀ c : Node, p (c.moved r) = p c)
    (o : Option Node) : (o.map (moved r)).filter p = (o.filter p).map (moved r) := by
  cases o with
  | none => rfl
  | some c =>
    rw [Option.map_some, Option.filter_some, Option.filter_some, h]
    split <;> rfl

theorem designation?_moved : (n.moved r).designation? = n.designation?.map (moved r) := by
  rw [designation?, childByField?_moved, childByField?_moved, namedChildren_moved,
    List.getLast?_map, map_orElse_moved, map_orElse_moved,
    filter_option_moved r fun c => by rw [isIdentifier_moved, kind_moved]]
  rfl

theorem loneParameter?_moved : (n.moved r).loneParameter? = n.loneParameter?.map (moved r) := by
  rw [loneParameter?, childByField?_moved, children_moved,
    takeWhile_moved r fun c => by rw [kind_moved], filter_moved r fun c => c.named_moved r,
    List.getLast?_map, map_orElse_moved, filter_option_moved r fun c => c.isIdentifier_moved r]
  rfl

theorem variableNames_moved : (n.moved r).variableNames = n.variableNames.map (moved r) := by
  rw [variableNames, namedChildren_moved, filter_moved r fun c => by rw [kind_moved],
    List.filterMap_map, variableNames, List.map_filterMap]
  refine List.filterMap_congr fun d _ => ?_
  rw [Function.comp_apply, childByField?_moved, namedChildOfKind?_moved, map_orElse_moved]

theorem namespaceName?_moved : (n.moved r).namespaceName? = n.namespaceName?.map (moved r) := by
  rw [namespaceName?, namespaceName?, construct_moved, childByField?_moved]
  split <;> rfl

theorem negated?_moved : (n.moved r).negated? = n.negated?.map (moved r) := by
  rw [negated?, negated?, namedChildren_moved, children_moved, List.head?_map, Option.map_map]
  have hkind : ((fun c : Node => c.kind) ∘ moved r) = fun c => c.kind := funext (kind_moved r)
  cases n.namedChildren with
  | nil => rfl
  | cons operand rest =>
    cases rest with
    | nil =>
      rw [hkind, List.map_cons, List.map_nil]
      simp only [isNumber_moved]
      split <;> rfl
    | cons => rfl

end

end Node

end Syntax

/-! ## Declarations -/

def Introduction.moved (r : Move) (i : Introduction) : Introduction :=
  ⟨i.owner.moved r, i.site.moved r, i.name, i.kind⟩

/-- A declaration without where it begins. -/
def Declaration.adrift (d : Declaration) : Declaration :=
  { d with position := ⟨0, 0⟩ }

def UsingDirective.adrift (u : UsingDirective) : UsingDirective :=
  { u with position := ⟨0, 0⟩ }

theorem Introduction.adrift_declaration_moved (r : Move) (i : Introduction) (scope : Scope) :
    ((i.moved r).declaration scope).adrift = (i.declaration scope).adrift := by
  simp only [declaration, moved, Declaration.adrift, Node.hasModifier_moved,
    Node.isExtensionMethod_moved, Node.statements?_moved]

namespace Syntax.Node

variable (r : Move) (n : Node)

theorem map_named_moved (kind : DeclarationKind) (sites : List Node) :
    (sites.map (moved r)).map (Introduction.named (n.moved r) kind) =
      (sites.map (Introduction.named n kind)).map (Introduction.moved r) := by
  rw [List.map_map, List.map_map]
  refine List.map_congr_left fun site _ => ?_
  rw [Function.comp_apply, Introduction.named, text_moved]
  rfl

theorem toList_map_moved (o : Option Node) : (o.map (moved r)).toList = o.toList.map (moved r) := by
  cases o <;> rfl

theorem byName_moved (kind : DeclarationKind) :
    (n.moved r).byName kind = (n.byName kind).map (Introduction.moved r) := by
  rw [byName, childByField?_moved, toList_map_moved, map_named_moved]
  rfl

theorem variableIntroductions_moved (parent : Option Node) :
    (n.moved r).variableIntroductions (parent.map (moved r)) =
      (n.variableIntroductions parent).map (Introduction.moved r) := by
  unfold variableIntroductions
  rw [variableNames_moved]
  cases parent with
  | none => exact n.map_named_moved r _ _
  | some p =>
    simp only [Option.map_some, kind_moved, hasModifier_moved]
    split
    · exact p.map_named_moved r _ _
    · split
      · exact p.map_named_moved r _ _
      · exact n.map_named_moved r _ _

theorem operator_moved : (n.moved r).operator = n.operator.map (Introduction.moved r) := by
  have hkeyword (c : Node) : ((c.moved r).kind != "operator") = (c.kind != "operator") := by
    rw [kind_moved]
  have hnamed (c : Node) : (c.moved r).named = c.named := c.named_moved r
  have hchecked (c : Node) : ((c.moved r).kind != "checked") = (c.kind != "checked") := by
    rw [kind_moved]
  unfold operator
  rw [children_moved, takeWhile_moved r hkeyword, dropWhile_moved r hkeyword]
  cases n.children.dropWhile (·.kind != "operator") with
  | nil => rfl
  | cons keyword behind =>
    simp only [List.map_cons, List.map_nil, construct_moved, childByField?_moved,
      find?_moved r hnamed, find?_moved r (p := (·.kind != "checked")) hchecked, map_orElse_moved,
      List.getLast?_map, Option.map_map, Introduction.moved]
    have htext : (fun c : Node => c.text) ∘ moved r = fun c => c.text := funext (text_moved r)
    have hcompact : (fun c : Node => Text.compact c.text) ∘ moved r =
        fun c => Text.compact c.text := funext fun c => congrArg Text.compact (c.text_moved r)
    rw [htext, hcompact]

theorem accessor_moved (around : List Node) :
    (n.moved r).accessor (around.map (moved r)) =
      (n.accessor around).map (Introduction.moved r) := by
  unfold accessor
  rw [childByField?_moved, children_moved, find?_moved r fun c => by rw [kind_moved],
    map_orElse_moved, List.getElem?_map]
  cases n.childByField? "name" <|> n.children.find? (accessorWords.contains ·.kind) with
  | none => rfl
  | some keyword =>
    have htext : (fun c : Node => c.text) ∘ moved r = fun c => c.text := funext (text_moved r)
    cases around[1]? with
    | none => simp only [Option.map_some, Option.map_none, text_moved, List.map_cons, List.map_nil,
        Introduction.moved]
    | some owner =>
      simp only [Option.map_some, kind_moved, childByField?_moved, Option.map_map, htext, text_moved,
        List.map_cons, List.map_nil, Introduction.moved]

theorem patternVariables_moved :
    (n.moved r).patternVariables = n.patternVariables.map (Introduction.moved r) := by
  rw [patternVariables_eq, patternVariables_eq, designation?_moved, toList_map_moved,
    List.flatMap_map]
  simp only [designated_moved]
  rw [← List.map_flatMap, map_named_moved]

theorem loopVariables_moved :
    (n.moved r).loopVariables = n.loopVariables.map (Introduction.moved r) := by
  rw [loopVariables_eq, loopVariables_eq, childByField?_moved, childByField?_moved, Option.isSome_map,
    toList_map_moved, List.flatMap_map]
  split
  · simp only [designated_moved]
    rw [← List.map_flatMap, map_named_moved]
  · rfl

/-- A moved node introduces what it did, where this was moved to. -/
theorem introduced_moved (around : List Node) :
    (n.moved r).introduced (around.map (moved r)) =
      (n.introduced around).map (Introduction.moved r) := by
  unfold introduced
  rw [construct_moved]
  cases n.construct with
  | typeDeclaration kind => exact n.byName_moved r kind
  | declaration kind => exact n.byName_moved r kind
  | variableGroup =>
    dsimp only
    rw [List.head?_map]
    exact n.variableIntroductions_moved r around.head?
  | operator | conversion => exact n.operator_moved r
  | accessor => exact n.accessor_moved r around
  | pattern => exact n.patternVariables_moved r
  | loop => exact n.loopVariables_moved r
  | lambda =>
    dsimp only
    rw [loneParameter?_moved, toList_map_moved, map_named_moved]
  | bareParameter => exact n.map_named_moved r .parameter [n]
  | _ => rfl

theorem adrift_namespaceDeclaration?_moved (outer : Option String) :
    ((n.moved r).namespaceDeclaration? outer).map Declaration.adrift =
      (n.namespaceDeclaration? outer).map Declaration.adrift := by
  rw [namespaceDeclaration?, namespaceDeclaration?, namespaceName?_moved]
  cases n.namespaceName? with
  | none => rfl
  | some name => simp only [Option.map_some, text_moved, Declaration.adrift]

/-! ## Other facts -/

theorem adrift_using?_moved :
    (n.moved r).using?.map UsingDirective.adrift = n.using?.map UsingDirective.adrift := by
  have hname (c : Node) : ((c.moved r).named && !directiveWords.contains (c.moved r).kind) =
      (c.named && !directiveWords.contains c.kind) := by rw [named_moved, kind_moved]
  have hword (word : String) (c : Node) : ((c.moved r).kind == word) = (c.kind == word) := by
    rw [kind_moved]
  have hany (word : String) (ns : List Node) :
      (ns.map (moved r)).any (·.kind == word) = ns.any (·.kind == word) :=
    any_moved r (p := (·.kind == word)) (hword word) ns
  have hbefore : (n.children.map (moved r)).filter (·.kind == "name_equals") =
      (n.children.filter (·.kind == "name_equals")).map (moved r) :=
    filter_moved r (p := (·.kind == "name_equals")) (hword "name_equals") n.children
  have htext : (fun c : Node => c.text) ∘ moved r = fun c => c.text := funext (text_moved r)
  have hgiven (o : Option Node) : ((o.map (moved r)).bind (·.namedChildOfKind? "identifier")) =
      (o.bind (·.namedChildOfKind? "identifier")).map (moved r) := by
    cases o with
    | none => rfl
    | some c => exact c.namedChildOfKind?_moved r "identifier"
  unfold using?
  rw [construct_moved]
  split
  · dsimp only
    rw [children_moved,
      filter_moved r (p := fun c => c.named && !directiveWords.contains c.kind) hname]
    simp only [hany, hbefore, List.getLast?_map, List.head?_map, List.length_map, Option.map_map,
      hgiven, htext]
    cases (n.children.filter fun c => c.named && !directiveWords.contains c.kind).getLast? with
    | none => rfl
    | some target => simp only [Option.map_some, Function.comp_apply, text_moved, UsingDirective.adrift]
  · rfl

theorem name_attributeReference?_moved :
    (n.moved r).attributeReference?.map (·.name) = n.attributeReference?.map (·.name) := by
  rw [attributeReference?, attributeReference?, construct_moved, childByField?_moved]
  split
  · cases n.childByField? "name" with
    | none => rfl
    | some name =>
      simp only [Option.map_some, Option.bind_some, text_moved, Option.map_map]
      rfl
  · rfl

/-! ## Scopes -/

theorem openedNamespace_moved (outer : Option String) :
    (n.moved r).openedNamespace outer = n.openedNamespace outer := by
  rw [openedNamespace, openedNamespace, childByField?_moved]
  cases n.childByField? "name" with
  | none => rfl
  | some name => simp only [Option.map_some, text_moved]

theorem innerScope?_moved (scope : Scope) (outer : Option String) :
    (n.moved r).innerScope? scope outer = n.innerScope? scope outer := by
  have hcontainer : (n.moved r).innerContainer scope.container =
      n.innerContainer scope.container := by
    rw [innerContainer, innerContainer, childByField?_moved]
    cases n.childByField? "name" with
    | none => rfl
    | some name => simp only [Option.map_some, text_moved]
  rw [innerScope?, innerScope?, construct_moved, hcontainer, openedNamespace_moved, negated?_moved,
    Option.isSome_map]

end Syntax.Node

end CodeSmell
