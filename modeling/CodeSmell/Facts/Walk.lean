import CodeSmell.Facts.Contribution

/-!
# The walk over a tree

The nodes are visited from left to right, each before its parts. What is still to be visited is a
list, so that a deep tree needs no deep recursion.

* `Findings` : what has been found so far, and what later visits depend on: the offsets of the
  identifiers that declare something, and the namespace that the rest of the file is in;
* `Pending` : a node to be visited, with what is around it;
* `visit`, `walk` : one visit, and all of them;
* `Facts.ofTree` : the facts of a file.
-/

namespace CodeSmell

open Syntax

/-- What the visits so far have found. -/
structure Findings where
  declarations : Array Declaration := #[]
  literals : Array NumericLiteral := #[]
  usings : Array UsingDirective := #[]
  references : Array Reference := #[]
  usesQuery : Bool := false
  /-- The offsets of identifiers that declare something. -/
  sites : List Nat := []
  /-- The namespace that a directive puts the rest of the file in. -/
  fileNamespace : Option String := none
deriving Repr, Inhabited

/-- A node to be visited. -/
structure Pending where
  node : Node
  /-- The nodes around it, the nearest first. -/
  ancestors : List Node
  scope : Scope

namespace Pending

/-- The parts of a visited node, which stand in `scope`. -/
def parts (p : Pending) (scope : Scope) : List Pending :=
  p.node.children.map fun c => ⟨c, p.node :: p.ancestors, scope⟩

end Pending

namespace Findings

/-- The namespace in force where a node stands: that of a block around it, or else that of the
file. -/
def namespaceAt (f : Findings) (scope : Scope) : Option String :=
  scope.inNamespace <|> f.fileNamespace

/-- The references that a node makes: an identifier that declares nothing refers to its name, and
an attribute to the full name of its class. -/
def referencesOf (f : Findings) (n : Node) : List Reference :=
  if n.construct == .identifier then
    if f.sites.contains n.start then [] else [⟨symbolName n.text, n.line⟩]
  else n.attributeReference?.toList

def visit (f : Findings) (p : Pending) : Findings :=
  let n := p.node
  let outer := f.namespaceAt p.scope
  let introduced := n.introduced p.ancestors
  { declarations := f.declarations
      ++ introduced.map (·.declaration ⟨outer, p.scope.container⟩)
      ++ (n.namespaceDeclaration? outer).toList
    literals := f.literals ++ n.literal?.toList
    usings := f.usings ++ n.using?.toList
    references := f.references ++ f.referencesOf n
    usesQuery := f.usesQuery || n.construct == .query
    sites := n.sites p.ancestors ++ f.sites
    fileNamespace :=
      if n.construct == .fileNamespace then n.openedNamespace outer else f.fileNamespace }

/-- Visits the pending nodes and their parts, as many nodes as `fuel` says. -/
def run (f : Findings) : Nat → List Pending → Findings
  | 0, _ => f
  | _, [] => f
  | fuel + 1, p :: rest =>
    match p.node.innerScope? p.scope (f.namespaceAt p.scope) with
    | none => (f.visit p).run fuel rest
    | some scope => (f.visit p).run fuel (p.parts scope ++ rest)

def walk (root : Node) : Findings :=
  ({} : Findings).run root.size [⟨root, [], {}⟩]

end Findings

namespace Facts

/-- The facts of the file at `path`. -/
def ofTree (path : String) (tree : Tree) : Facts :=
  let found := Findings.walk tree.root
  { path := path
    declarations := found.declarations.toList
    literals := found.literals.toList
    usings := found.usings.toList
    references := found.references.toList
    usesQuery := found.usesQuery
    hasError := tree.hasError }

end Facts

end CodeSmell
