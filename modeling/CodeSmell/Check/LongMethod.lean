import CodeSmell.Finding.Basic
import CodeSmell.Source

/-!
# Long methods

A callable is long if its body has at least as many direct statements as the threshold; one without
a body has none. Layout and comments do not count.
-/

namespace CodeSmell

def defaultThreshold : Nat := 50

namespace Declaration

/-- The name under which a callable is reported; a destructor is told from its type by a tilde. -/
def callableName (d : Declaration) : String :=
  if d.kind == .destructor then "~" ++ d.name else d.name

def statementCount (d : Declaration) : Nat :=
  d.statements.getD 0

end Declaration

namespace Facts

/-- The callables with at least `threshold` statements, in the order they are declared. -/
def longMethods (f : Facts) (threshold : Nat) : List LongMethod :=
  (f.callables.filter fun d => threshold ≤ d.statementCount).map fun d =>
    { methodName := d.callableName
      declaringFile := f.path
      startLine := d.position.line
      statementCount := d.statementCount }

end Facts

namespace Source

def longMethods (s : Source) (threshold : Nat) : List LongMethod :=
  s.facts.toList.flatMap (·.longMethods threshold)

end Source

end CodeSmell
