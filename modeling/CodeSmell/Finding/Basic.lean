/-!
# Findings

* `LongMethod`, `MagicNumber`, `NamingViolation`, `DeadCode` : the findings of the four checks;
* `IdentifierType`, `Convention` : what kind of name breaks which rule;
* `ScanResult` : the findings of a scan, with `total` and `isClean`.
-/

namespace CodeSmell

/-- A callable with many statements. -/
structure LongMethod where
  methodName : String
  declaringFile : String
  startLine : Nat
  statementCount : Nat
deriving DecidableEq, Repr, Inhabited

/-- A number that should have a name. -/
structure MagicNumber where
  value : String
  file : String
  line : Nat
deriving DecidableEq, Repr, Inhabited

/-- The kinds of names that have a convention. -/
inductive IdentifierType where
  | classType
  | interfaceType
  | structType
  | enumType
  | recordType
  | delegateType
  | method
  | property
  | event
  | enumMember
  | constant
  | field
  | parameter
  | localVariable
deriving DecidableEq, Repr, Inhabited

namespace IdentifierType

def label : IdentifierType → String
  | classType => "Class"
  | interfaceType => "Interface"
  | structType => "Struct"
  | enumType => "Enum"
  | recordType => "Record"
  | delegateType => "Delegate"
  | method => "Method"
  | property => "Property"
  | event => "Event"
  | enumMember => "EnumMember"
  | constant => "Constant"
  | field => "Field"
  | parameter => "Parameter"
  | localVariable => "LocalVariable"

def all : List IdentifierType :=
  [classType, interfaceType, structType, enumType, recordType, delegateType, method, property,
    event, enumMember, constant, field, parameter, localVariable]

def ofLabel? (s : String) : Option IdentifierType :=
  all.find? fun t => t.label == s

@[simp]
theorem ofLabel?_label (t : IdentifierType) : ofLabel? t.label = some t := by
  cases t <;> decide

end IdentifierType

/-- How a name has to be written. -/
inductive Convention where
  /-- `StrokeBuffer` -/
  | upperCamel
  /-- `strokeBuffer` -/
  | lowerCamel
deriving DecidableEq, Repr, Inhabited

namespace Convention

/-- A convention as a message shows it, written in itself. -/
def label : Convention → String
  | upperCamel => "UpperCamelCase"
  | lowerCamel => "lowerCamelCase"

/-- A convention as a record names it. -/
def code : Convention → String
  | upperCamel => "UpperCamelCase"
  | lowerCamel => "LowerCamelCase"

def ofCode? (s : String) : Option Convention :=
  [upperCamel, lowerCamel].find? fun c => c.code == s

@[simp]
theorem ofCode?_code (c : Convention) : ofCode? c.code = some c := by
  cases c <;> decide

end Convention

/-- A name that breaks the convention for its kind. -/
structure NamingViolation where
  identifierName : String
  identifierType : IdentifierType
  file : String
  line : Nat
  expected : Convention
deriving DecidableEq, Repr, Inhabited

/-- What is not used. -/
inductive DeadCodeKind where
  | unusedImport
  | unreferencedDeclaration
deriving DecidableEq, Repr, Inhabited

namespace DeadCodeKind

def label : DeadCodeKind → String
  | unusedImport => "UnusedImport"
  | unreferencedDeclaration => "UnreferencedDeclaration"

def ofLabel? (s : String) : Option DeadCodeKind :=
  [unusedImport, unreferencedDeclaration].find? fun k => k.label == s

@[simp]
theorem ofLabel?_label (k : DeadCodeKind) : ofLabel? k.label = some k := by
  cases k <;> decide

end DeadCodeKind

/-- A directive or declaration that nothing uses. -/
structure DeadCode where
  kind : DeadCodeKind
  identifier : String
  file : String
  line : Nat
deriving DecidableEq, Repr, Inhabited

/-- The findings of a scan, check by check. -/
structure ScanResult where
  /-- The number of files that were loaded. -/
  scanned : Nat := 0
  longMethods : List LongMethod := []
  magicNumbers : List MagicNumber := []
  namingViolations : List NamingViolation := []
  deadCode : List DeadCode := []
deriving DecidableEq, Repr, Inhabited

namespace ScanResult

def total (r : ScanResult) : Nat :=
  r.longMethods.length + r.magicNumbers.length + r.namingViolations.length + r.deadCode.length

def isClean (r : ScanResult) : Bool :=
  r.total == 0

end ScanResult

end CodeSmell
