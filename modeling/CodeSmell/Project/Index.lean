import CodeSmell.Source

/-!
# What a project declares and mentions

* `scopeEntries` : where a declaration is visible by its simple name after a directive;
* `Project` : the facts of all files that could be analyzed, in the order of the files;
* `referenced`, `declaredIn?` : the names mentioned in any file, and the names that the project
  declares directly in a namespace or type.
-/

namespace CodeSmell

def splitLastDot? (s : String) : Option (String × String) :=
  let backwards := s.toList.reverse
  match backwards.dropWhile (· != '.') with
  | [] => none
  | _ :: before =>
    some (String.ofList before.reverse, String.ofList (backwards.takeWhile (· != '.')).reverse)

namespace Declaration

/-- The scopes that a declaration is a direct member of, each with its name there. A namespace
belongs to the namespace around it, a member or nested type to the type around it, a type to its
namespace; an extension method is also found through the namespace of its class. -/
def scopeEntries (d : Declaration) : List (String × String) :=
  if d.kind == .namespaceName then (splitLastDot? d.name).toList
  else
    let byType :=
      match d.container with
      | some container =>
        if d.kind.isMember || d.kind.isType then [dotted d.inNamespace container] else []
      | none => if d.kind.isType then d.inNamespace.toList else []
    let byNamespace := if d.isExtension then d.inNamespace.toList else []
    (byType ++ byNamespace).map fun scope => (scope, d.symbol)

end Declaration

namespace Facts

def referenced (f : Facts) : List String :=
  f.references.map (·.name)

end Facts

/-- The facts of the files of a project. -/
structure Project where
  files : List Facts
deriving Repr, Inhabited

namespace Project

/-- The project of some sources. Those that could not be analyzed contribute nothing. -/
def ofSources (sources : List Source) : Project where
  files := sources.filterMap (·.facts)

def referenced (p : Project) : List String :=
  p.files.flatMap (·.referenced)

def usesQuery (p : Project) : Bool :=
  p.files.any (·.usesQuery)

/-- Every scope with every name declared in it. -/
def scopeEntries (p : Project) : List (String × String) :=
  p.files.flatMap fun f => f.declarations.flatMap (·.scopeEntries)

/-- The names that the project declares directly in a namespace or type, if it declares any. -/
def declaredIn? (p : Project) (scope : String) : Option (List String) :=
  match p.scopeEntries.filter (·.1 == scope) with
  | [] => none
  | entries => some (entries.map (·.2))

end Project

end CodeSmell
