import CodeSmell.Syntax.Node

/-!
# What a file declares and mentions

* `DeclarationKind` : the kinds of declarations, with their names and three families of them:
  types, callables and members;
* `Declaration`, `NumericLiteral`, `UsingDirective`, `Reference` : what a file says, each with
  where it says it;
* `symbolName` : the name that an identifier stands for: a verbatim `@` does not count;
* `Facts` : all that a file says.
-/

namespace CodeSmell

/-- Where something begins. -/
structure Position where
  byte : Nat
  line : Nat
deriving DecidableEq, Repr, Inhabited

def Syntax.Node.position (n : Syntax.Node) : Position :=
  ⟨n.start, n.line⟩

/-- The kinds of declarations. -/
inductive DeclarationKind where
  | namespaceName
  | classType
  | interfaceType
  | structType
  | enumType
  | recordType
  | delegateType
  | method
  | constructor
  | destructor
  | localFunction
  | operator
  | accessor
  | property
  | event
  | enumMember
  | field
  | constant
  | parameter
  | localVariable
deriving DecidableEq, Repr, Inhabited

namespace DeclarationKind

def label : DeclarationKind → String
  | namespaceName => "namespace"
  | classType => "class"
  | interfaceType => "interface"
  | structType => "struct"
  | enumType => "enum"
  | recordType => "record"
  | delegateType => "delegate"
  | method => "method"
  | constructor => "constructor"
  | destructor => "destructor"
  | localFunction => "local function"
  | operator => "operator"
  | accessor => "accessor"
  | property => "property"
  | event => "event"
  | enumMember => "enum member"
  | field => "field"
  | constant => "constant"
  | parameter => "parameter"
  | localVariable => "local variable"

def all : List DeclarationKind :=
  [namespaceName, classType, interfaceType, structType, enumType, recordType, delegateType,
    method, constructor, destructor, localFunction, operator, accessor, property, event,
    enumMember, field, constant, parameter, localVariable]

def ofLabel? (s : String) : Option DeclarationKind :=
  all.find? fun k => k.label == s

def isType : DeclarationKind → Bool
  | classType | interfaceType | structType | enumType | recordType | delegateType => true
  | _ => false

/-- Whether it may have a body that is executed. -/
def isCallable : DeclarationKind → Bool
  | method | constructor | destructor | localFunction | operator | accessor => true
  | _ => false

/-- Whether it is a member of a type that can be named from outside. -/
def isMember : DeclarationKind → Bool
  | method | property | event | enumMember | field | constant => true
  | _ => false

theorem mem_all (k : DeclarationKind) : k ∈ all := by
  cases k <;> decide

end DeclarationKind

/-- The name that an identifier stands for: it may be written with a verbatim `@`. -/
def symbolName (identifier : String) : String :=
  match identifier.toList with
  | '@' :: rest => String.ofList rest
  | _ => identifier

theorem symbolName_verbatim (s : String) : symbolName ("@" ++ s) = s := by
  have hchars : ("@" ++ s).toList = '@' :: s.toList := by
    rw [String.toList_append]
    rfl
  rw [symbolName, hchars]
  exact String.ofList_toList

theorem symbolName_of_head?_ne {s : String} (h : s.toList.head? ≠ some '@') : symbolName s = s := by
  unfold symbolName
  split
  next rest hchars => exact absurd (by rw [hchars]; rfl) h
  next => rfl

/-- A declaration with a name. -/
structure Declaration where
  /-- The name as it is written, or made up for operators and accessors, which have none. -/
  name : String
  kind : DeclarationKind
  position : Position
  /-- The namespace around it, dotted. -/
  inNamespace : Option String
  /-- The types around it, dotted from the outermost. -/
  container : Option String
  isOverride : Bool
  /-- A method whose first parameter is marked `this`. -/
  isExtension : Bool
  /-- The number of statements that stand directly in its body, if it has one. -/
  statements : Option Nat
deriving DecidableEq, Repr, Inhabited

namespace Declaration

def symbol (d : Declaration) : String :=
  symbolName d.name

end Declaration

/-- A number in the source. -/
structure NumericLiteral where
  /-- The text as it is written, after a minus sign if one stands directly before it. -/
  text : String
  position : Position
deriving DecidableEq, Repr, Inhabited

/-- A directive that makes the names of a namespace or a type available. -/
structure UsingDirective where
  /-- The namespace or type, without blanks. -/
  path : String
  aliasName : Option String
  isStatic : Bool
  isGlobal : Bool
  position : Position
deriving DecidableEq, Repr, Inhabited

namespace UsingDirective

def displayName (u : UsingDirective) : String :=
  u.aliasName.getD u.path

end UsingDirective

/-- A name mentioned where nothing of that name is declared. -/
structure Reference where
  name : String
  line : Nat
deriving DecidableEq, Repr, Inhabited

/-- All that a file says, each list in the order of the visits to its tree. -/
structure Facts where
  path : String
  declarations : List Declaration
  literals : List NumericLiteral
  usings : List UsingDirective
  references : List Reference
  /-- Whether the file has a query expression. -/
  usesQuery : Bool
  /-- Whether a part of the file did not fit the grammar. -/
  hasError : Bool
deriving Repr, Inhabited

namespace Facts

def callables (f : Facts) : List Declaration :=
  f.declarations.filter (·.kind.isCallable)

end Facts

end CodeSmell
