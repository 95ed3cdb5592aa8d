import CodeSmell.Facts.Construct
import CodeSmell.Text.Blank

/-!
# What single nodes contribute

* `statements?`, `hasModifier`, `isExtensionMethod` : properties of a declaring node;
* `Deconstruction`, `bindings` : a designation taken apart with a stack, and the identifiers that it
  binds;
* `identifiersUnder` : all identifiers in a name;
* `introduced` : the declarations a node makes, namespaces apart, each with the node that names it;
* `literal?`, `using?`, `attributeReference?` : the other facts a node states;
* `Scope`, `innerScope?` : where a node stands, and where its parts do.
-/

namespace CodeSmell

open Syntax

/-- The namespace and the types that a node stands in. -/
structure Scope where
  inNamespace : Option String := none
  container : Option String := none
deriving DecidableEq, Repr, Inhabited

def dotted (outer : Option String) (inner : String) : String :=
  match outer with
  | some outer => outer ++ "." ++ inner
  | none => inner

namespace Syntax.Node

/-! ## Bodies and modifiers -/

def isStatement (n : Node) : Bool :=
  n.named && n.kind != "comment" && !"preproc".toList.isPrefixOf n.kind.toList

def body? (n : Node) : Option Node :=
  n.childByField? "body" <|>
    n.children.find? fun c => c.kind == "block" || c.kind == "arrow_expression_clause"

/-- The number of statements directly in the body; an expression body counts as one. -/
def statements? (n : Node) : Option Nat :=
  match n.body? with
  | none => none
  | some body =>
    if body.kind == "block" then some (body.children.countP isStatement)
    else if body.kind == "arrow_expression_clause" then some 1
    else none

def hasModifier (n : Node) (word : String) : Bool :=
  n.children.any fun c => c.kind == "modifier" && c.text == word

/-- Whether the first parameter is marked `this`; a parameter may also be named so. -/
def isExtensionMethod (n : Node) : Bool :=
  match (n.childByField? "parameters").bind (·.namedChildOfKind? "parameter") with
  | none => false
  | some parameter =>
    let name := (parameter.childByField? "name").map (·.start)
    parameter.children.any fun c => some c.start != name && c.text == "this"

/-! ## Names -/

/-- Whether a node groups the designations that it holds. -/
def isGroup (n : Node) : Bool :=
  n.kind == "parenthesized_variable_designation" || n.kind == "tuple_pattern"

end Syntax.Node

/-- A designation that is being taken apart. -/
structure Deconstruction where
  /-- The identifiers that have been found. -/
  found : Array Node := #[]
  /-- The nodes still to be looked at, the next one first. -/
  stack : List Node

namespace Deconstruction

/-- Looks at the node on top of the stack. A group is replaced by its named parts, which are pushed
from the last to the first. -/
def next? (d : Deconstruction) : Option Deconstruction :=
  match d.stack with
  | [] => none
  | n :: rest =>
    if n.isIdentifier then some ⟨d.found.push n, rest⟩
    else if n.isGroup then
      some ⟨d.found, n.namedChildren.reverse.foldl (fun stack c => c :: stack) rest⟩
    else some ⟨d.found, rest⟩

/-- Looks at the nodes on the stack, as many as `fuel` says, until there are none. -/
def run (d : Deconstruction) : Nat → Deconstruction
  | 0 => d
  | fuel + 1 =>
    match d.next? with
    | none => d
    | some next => next.run fuel

end Deconstruction

namespace Syntax.Node

/-- The identifiers that a designation binds, from left to right. -/
def bindings (n : Node) : List Node :=
  (Deconstruction.run { stack := [n] } n.size).found.toList

mutual

/-- The identifiers in a name, which may be qualified and have type arguments. -/
def identifiersUnder : Node → List Node
  | n@⟨_, _, _, _, _, _, _, children⟩ =>
    if n.isIdentifier then [n] else identifiersIn children

/-- The identifiers in the named ones of these nodes. -/
def identifiersIn : List Node → List Node
  | [] => []
  | n :: rest => if n.named then identifiersUnder n ++ identifiersIn rest else identifiersIn rest

end

def designation? (n : Node) : Option Node :=
  (n.childByField? "name" <|> n.childByField? "designation" <|> n.namedChildren.getLast?).filter
    fun d => d.isIdentifier || d.kind == "parenthesized_variable_designation"

/-- The parameter of a lambda that is written without parentheses. -/
def loneParameter? (n : Node) : Option Node :=
  (n.childByField? "parameters" <|>
    ((n.children.takeWhile (·.kind != "=>")).filter (·.named)).getLast?).filter (·.isIdentifier)

def variableNames (n : Node) : List Node :=
  (n.namedChildren.filter (·.kind == "variable_declarator")).filterMap fun d =>
    d.childByField? "name" <|> d.namedChildOfKind? "identifier"

end Syntax.Node

/-! ## Declarations -/

/-- A declaration before it is known where it stands: the node that declares, the node that names
it, its name and kind. -/
structure Introduction where
  owner : Node
  site : Node
  name : String
  kind : DeclarationKind

namespace Introduction

def named (owner : Node) (kind : DeclarationKind) (site : Node) : Introduction :=
  ⟨owner, site, site.text, kind⟩

/-- The declaration, once it is known where it stands. -/
def declaration (i : Introduction) (scope : Scope) : Declaration where
  name := i.name
  kind := i.kind
  position := i.site.position
  inNamespace := scope.inNamespace
  container := scope.container
  isOverride := i.owner.hasModifier "override"
  isExtension := i.kind == .method && i.owner.isExtensionMethod
  statements := if i.kind.isCallable then i.owner.statements? else none

end Introduction

namespace Syntax.Node

def byName (n : Node) (kind : DeclarationKind) : List Introduction :=
  (n.childByField? "name").toList.map (.named n kind)

/-- Variables are constants, fields, events or locals, as the node around them says, which then
is the one that declares them. -/
def variableIntroductions (n : Node) (parent : Option Node) : List Introduction :=
  let (owner, kind) : Node × DeclarationKind :=
    match parent with
    | some p =>
      if p.kind == "field_declaration" then
        (p, if p.hasModifier "const" then .constant else .field)
      else if p.kind == "event_field_declaration" then (p, .event)
      else (n, .localVariable)
    | none => (n, .localVariable)
  n.variableNames.map (.named owner kind)

/-- An operator is named after its token, a conversion after its direction and target type. -/
def operator (n : Node) : List Introduction :=
  let before := n.children.takeWhile (·.kind != "operator")
  match n.children.dropWhile (·.kind != "operator") with
  | [] => []
  | keyword :: behind =>
    let name :=
      if n.construct == .conversion then
        let direction := (before.getLast?.map (·.text)).getD "implicit"
        let target := (n.childByField? "type" <|> behind.find? (·.named)).map (Text.compact ·.text)
        direction ++ " operator " ++ target.getD ""
      else
        let token := n.childByField? "operator" <|> behind.find? (·.kind != "checked")
        "operator " ++ (token.map (·.text)).getD ""
    [⟨n, keyword, name, .operator⟩]

def accessorWords : List String :=
  ["get", "set", "init", "add", "remove"]

/-- An accessor is named after its word and what it gives access to, the parent of its list. -/
def accessor (n : Node) (ancestors : List Node) : List Introduction :=
  match n.childByField? "name" <|> n.children.find? (accessorWords.contains ·.kind) with
  | none => []
  | some keyword =>
    let subject :=
      match ancestors[1]? with
      | none => ""
      | some owner =>
        if owner.kind == "indexer_declaration" then "Item"
        else ((owner.childByField? "name").map (·.text)).getD ""
    [⟨n, keyword, keyword.text ++ "_" ++ subject, .accessor⟩]

def patternVariables (n : Node) : List Introduction :=
  (n.designation?.toList.flatMap bindings).map (.named n .localVariable)

/-- The locals of a loop over the items of a collection, if it declares any. -/
def loopVariables (n : Node) : List Introduction :=
  if (n.childByField? "type").isSome then
    ((n.childByField? "left").toList.flatMap bindings).map (.named n .localVariable)
  else []

/-- The declarations that a node makes, namespaces apart. -/
def introduced (n : Node) (ancestors : List Node) : List Introduction :=
  match n.construct with
  | .typeDeclaration kind => n.byName kind
  | .declaration kind => n.byName kind
  | .variableGroup => n.variableIntroductions ancestors.head?
  | .operator => n.operator
  | .conversion => n.operator
  | .accessor => n.accessor ancestors
  | .pattern => n.patternVariables
  | .loop => n.loopVariables
  | .lambda => n.loneParameter?.toList.map (.named n .parameter)
  | .bareParameter => [.named n .parameter n]
  | _ => []

def namespaceName? (n : Node) : Option Node :=
  match n.construct with
  | .namespaceBlock | .fileNamespace => n.childByField? "name"
  | _ => none

def namespaceDeclaration? (n : Node) (outer : Option String) : Option Declaration :=
  n.namespaceName?.map fun name =>
    { name := dotted outer (Text.compact name.text)
      kind := .namespaceName
      position := name.position
      inNamespace := none
      container := none
      isOverride := false
      isExtension := false
      statements := none }

/-- The offsets of the identifiers that declare something, and so refer to nothing: those that
name a declaration, those in the name of a namespace, and those of a type parameter. -/
def sites (n : Node) (ancestors : List Node) : List Nat :=
  (n.introduced ancestors).map (·.site.start) ++
    (n.namespaceName?.toList.flatMap identifiersUnder).map (·.start) ++
    if n.construct == .typeParameter then n.identifiersUnder.map (·.start) else []

/-! ## Literals, directives, attributes -/

/-- The number behind a minus sign, if there is nothing else. -/
def negated? (n : Node) : Option Node :=
  match n.namedChildren with
  | [operand] =>
    if (n.children.head?.map (·.kind)) == some "-" && operand.isNumber then some operand else none
  | _ => none

def literal? (n : Node) : Option NumericLiteral :=
  match n.construct with
  | .number => some ⟨n.text, n.position⟩
  | .prefixed => n.negated?.map fun operand => ⟨"-" ++ operand.text, n.position⟩
  | _ => none

/-- The kinds of nodes in a directive that name nothing. -/
def directiveWords : List String :=
  ["global", "static", "=", "name_equals", "comment"]

/-- The directive that a node writes: it concerns the last name, and with an equals sign the first
name is its alias. -/
def using? (n : Node) : Option UsingDirective :=
  if n.construct == .usingDirective then
    let names := n.children.filter fun c => c.named && !directiveWords.contains c.kind
    let has := fun word => n.children.any (·.kind == word)
    let before := (n.children.filter (·.kind == "name_equals")).getLast?
    let given := (before.bind (·.namedChildOfKind? "identifier")).map (·.text)
    let first := if has "=" && 2 ≤ names.length then names.head?.map (·.text) else none
    names.getLast?.map fun target =>
      { path := Text.compact target.text
        aliasName := given <|> first
        isStatic := has "static"
        isGlobal := has "global"
        position := n.position }
  else none

end Syntax.Node

/-- The class that an attribute written `name` may also stand for: the simple name, without its
qualifier and its type arguments, with `Attribute` behind it. -/
def attributeClass? (name : String) : Option String :=
  let simple := ((Text.compact name).toList.reverse.takeWhile fun c => c != '.' && c != ':').reverse
  let stem := symbolName (String.ofList (simple.takeWhile (· != '<')))
  if stem.isEmpty || "Attribute".toList.isSuffixOf stem.toList then none
  else some (stem ++ "Attribute")

namespace Syntax.Node

def attributeReference? (n : Node) : Option Reference :=
  if n.construct == .attributeUse then
    ((n.childByField? "name").bind fun name => attributeClass? name.text).map fun name =>
      ⟨name, n.line⟩
  else none

/-! ## Scopes -/

def openedNamespace (n : Node) (outer : Option String) : Option String :=
  match n.childByField? "name" with
  | none => outer
  | some name => some (dotted outer (Text.compact name.text))

/-- The types around the parts of a type declaration. -/
def innerContainer (n : Node) (outer : Option String) : Option String :=
  match n.childByField? "name" with
  | none => outer
  | some name => some (dotted outer name.text)

/-- Where the parts of a node stand, or nothing if they are not visited. `outer` is the namespace
in force at the node. -/
def innerScope? (n : Node) (scope : Scope) (outer : Option String) : Option Scope :=
  match n.construct with
  | .typeDeclaration _ => some ⟨outer, n.innerContainer scope.container⟩
  | .namespaceBlock | .fileNamespace => some ⟨n.openedNamespace outer, none⟩
  | .usingDirective | .bareParameter | .typeParameter | .number | .identifier => none
  | .prefixed => if n.negated?.isSome then none else some scope
  | _ => some scope

end Syntax.Node

end CodeSmell
