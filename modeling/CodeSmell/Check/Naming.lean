import CodeSmell.Finding.Basic
import CodeSmell.Source
import CodeSmell.Text.Category

/-!
# Naming conventions

* `DeclarationKind.identifierType?` : the kind of name that a declaration has, if it is checked;
* `IdentifierType.convention` : how such names are written;
* `Convention.admits` : whether a name is written so;
* `namingViolations` : the declarations that are not.
-/

namespace CodeSmell

/-- The kind of name of a declaration. Namespaces, constructors, destructors, operators and
accessors take their names from elsewhere. -/
def DeclarationKind.identifierType? : DeclarationKind → Option IdentifierType
  | .classType => some .classType
  | .interfaceType => some .interfaceType
  | .structType => some .structType
  | .enumType => some .enumType
  | .recordType => some .recordType
  | .delegateType => some .delegateType
  | .method | .localFunction => some .method
  | .property => some .property
  | .event => some .event
  | .enumMember => some .enumMember
  | .constant => some .constant
  | .field => some .field
  | .parameter => some .parameter
  | .localVariable => some .localVariable
  | .namespaceName | .constructor | .destructor | .operator | .accessor => none

def IdentifierType.convention : IdentifierType → Convention
  | .field | .parameter | .localVariable => .lowerCamel
  | _ => .upperCamel

namespace Convention

def initial : Convention → Text.Category
  | upperCamel => .upper
  | lowerCamel => .lower

/-- Whether a name begins with a letter of the right case and goes on with letters and digits. -/
def admits (c : Convention) (name : String) : Bool :=
  match name.toList with
  | [] => false
  | first :: rest =>
    Text.category first == c.initial && rest.all fun c => Text.isLetter c || Text.isDigit c

end Convention

/-- Whether a name only says that something is not needed: it is empty or has underscores alone. -/
def isDiscard (name : String) : Bool :=
  name.toList.all (· == '_')

namespace Declaration

/-- The violation of a declaration in a file, if its name breaks the convention. -/
def namingViolation? (d : Declaration) (file : String) : Option NamingViolation :=
  d.kind.identifierType?.bind fun type =>
    if isDiscard d.symbol || type.convention.admits d.symbol then none
    else some
      { identifierName := d.name
        identifierType := type
        file := file
        line := d.position.line
        expected := type.convention }

end Declaration

namespace Facts

/-- The names that break their convention, in the order they are declared. -/
def namingViolations (f : Facts) : List NamingViolation :=
  f.declarations.filterMap (·.namingViolation? f.path)

end Facts

namespace Source

def namingViolations (s : Source) : List NamingViolation :=
  s.facts.toList.flatMap (·.namingViolations)

end Source

end CodeSmell
