import CodeSmell.Check.Naming
import CodeSmell.Project.Index
import CodeSmell.Project.KnownNames

/-!
# Dead code

A declaration is dead if its name is mentioned nowhere in the project. A using directive is dead if
something is known about what it makes available and none of that is mentioned where it applies.
Names are compared as text, so that whatever is uncertain counts as used.

* `DeadCodeOptions` : the names that are used from outside, and what other namespaces provide;
* `importIsUsed`, `isCandidate` : the two questions;
* `Facts.deadCode`, `Project.deadCode` : the findings of a file and of a project.
-/

namespace CodeSmell

/-- What is known from outside the project. -/
structure DeadCodeOptions where
  /-- Names that the runtime calls. -/
  entryPoints : List String := ["Main"]
  /-- Namespaces with names they provide; one may be listed several times. -/
  knownNamespaces : List (String × List String) := []
deriving Repr, Inhabited

namespace DeadCodeOptions

def withEntryPoints (o : DeadCodeOptions) (names : List String) : DeadCodeOptions :=
  { o with entryPoints := names }

def withKnownNamespaces (o : DeadCodeOptions) (more : List (String × List String)) :
    DeadCodeOptions :=
  { o with knownNamespaces := o.knownNamespaces ++ more }

/-- The names that a namespace is said to provide, if it is listed. -/
def known? (o : DeadCodeOptions) (path : String) : Option (List String) :=
  match o.knownNamespaces.filter (·.1 == path) with
  | [] => none
  | entries => some (entries.flatMap (·.2))

end DeadCodeOptions

/-- The namespace that query expressions rely on. -/
def queryNamespace : String := "System.Linq"

/-- What a directive is checked against: the names mentioned where it applies, and whether there
is a query expression. -/
structure Usage where
  names : List String
  query : Bool

/-- Where a directive applies: in its file, or in the whole project if it is global. -/
def usageOf (p : Project) (f : Facts) (u : UsingDirective) : Usage :=
  if u.isGlobal then ⟨p.referenced, p.usesQuery⟩ else ⟨f.referenced, f.usesQuery⟩

/-- All that is known to be provided by a namespace, one list for each source of knowledge. -/
def providedBy (p : Project) (o : DeadCodeOptions) (path : String) : List (List String) :=
  (p.declaredIn? path).toList ++ (Project.builtin? path).toList ++ (o.known? path).toList

def importIsUsed (p : Project) (o : DeadCodeOptions) (usage : Usage) (u : UsingDirective) : Bool :=
  match u.aliasName with
  | some name => usage.names.contains name
  | none =>
    if Project.isOpen u.path || (usage.query && u.path == queryNamespace) then true
    else
      let lists := providedBy p o u.path
      lists.isEmpty || lists.any fun names => names.any usage.names.contains

/-- The kinds of declarations that are alive without being mentioned. -/
def DeclarationKind.isExempt : DeclarationKind → Bool
  | .namespaceName | .constructor | .destructor | .localFunction | .operator | .accessor
  | .parameter | .localVariable => true
  | _ => false

/-- Whether a declaration has to be mentioned somewhere to be alive. -/
def isCandidate (o : DeadCodeOptions) (d : Declaration) : Bool :=
  !d.kind.isExempt && !d.isOverride && !isDiscard d.symbol && !o.entryPoints.contains d.symbol

namespace Facts

/-- The classes that hold extension methods, which are used without naming the class. -/
def extensionHosts (f : Facts) : List String :=
  (f.declarations.filter (·.isExtension)).filterMap (·.container)

def hostsExtensions (f : Facts) (d : Declaration) : Bool :=
  d.kind.isType && d.container.isNone && f.extensionHosts.contains d.symbol

/-- A finding and the offset it is reported at. -/
abbrev Located := Nat × DeadCode

def unusedImports (f : Facts) (p : Project) (o : DeadCodeOptions) : List Located :=
  (f.usings.filter fun u => !importIsUsed p o (usageOf p f u) u).map fun u =>
    (u.position.byte, ⟨.unusedImport, u.displayName, f.path, u.position.line⟩)

def unreferenced (f : Facts) (p : Project) (o : DeadCodeOptions) : List Located :=
  (f.declarations.filter fun d =>
      isCandidate o d && !f.hostsExtensions d && !p.referenced.contains d.symbol).map fun d =>
    (d.position.byte, ⟨.unreferencedDeclaration, d.name, f.path, d.position.line⟩)

/-- The dead code of a file by position; of two findings at one place the directive comes first. -/
def deadCode (f : Facts) (p : Project) (o : DeadCodeOptions) : List DeadCode :=
  ((f.unusedImports p o ++ f.unreferenced p o).mergeSort fun a b => a.1 ≤ b.1).map (·.2)

end Facts

namespace Project

def deadCode (p : Project) (o : DeadCodeOptions) : List DeadCode :=
  p.files.flatMap fun f => f.deadCode p o

end Project

end CodeSmell
