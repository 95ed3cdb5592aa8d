import CodeSmell.Facts.Basic

/-!
# What the grammar's kinds of nodes mean

`Construct.ofKind` sorts the kinds of nodes by what they contribute to the facts of a file; a kind
that contributes nothing of its own is `other`.
-/

namespace CodeSmell

/-- What a node contributes. -/
inductive Construct where
  /-- A type, which is also a scope. -/
  | typeDeclaration (kind : DeclarationKind)
  /-- A declaration named by its `name` field. -/
  | declaration (kind : DeclarationKind)
  | usingDirective
  /-- A namespace with a body. -/
  | namespaceBlock
  /-- A namespace for the rest of the file. -/
  | fileNamespace
  /-- The declarators of fields, events and locals. -/
  | variableGroup
  | operator
  | conversion
  | accessor
  /-- A pattern that may bind names. -/
  | pattern
  | loop
  | lambda
  /-- A lambda's parameter without a type. -/
  | bareParameter
  | attributeUse
  | query
  | typeParameter
  /-- An operator in front of its operand. -/
  | prefixed
  | number
  | identifier
  | other
deriving DecidableEq, Repr, Inhabited

namespace Construct

def ofKind (kind : String) : Construct :=
  match kind with
  | "class_declaration" => typeDeclaration .classType
  | "interface_declaration" => typeDeclaration .interfaceType
  | "struct_declaration" => typeDeclaration .structType
  | "enum_declaration" => typeDeclaration .enumType
  | "record_declaration" => typeDeclaration .recordType
  | "record_struct_declaration" => typeDeclaration .recordType
  | "delegate_declaration" => declaration .delegateType
  | "method_declaration" => declaration .method
  | "constructor_declaration" => declaration .constructor
  | "destructor_declaration" => declaration .destructor
  | "local_function_statement" => declaration .localFunction
  | "property_declaration" => declaration .property
  | "event_declaration" => declaration .event
  | "enum_member_declaration" => declaration .enumMember
  | "parameter" => declaration .parameter
  | "declaration_expression" => declaration .localVariable
  | "catch_declaration" => declaration .localVariable
  | "using_directive" => usingDirective
  | "namespace_declaration" => namespaceBlock
  | "file_scoped_namespace_declaration" => fileNamespace
  | "variable_declaration" => variableGroup
  | "operator_declaration" => operator
  | "conversion_operator_declaration" => conversion
  | "accessor_declaration" => accessor
  | "declaration_pattern" => pattern
  | "var_pattern" => pattern
  | "foreach_statement" => loop
  | "lambda_expression" => lambda
  | "implicit_parameter" => bareParameter
  | "attribute" => attributeUse
  | "query_expression" => query
  | "type_parameter" => typeParameter
  | "prefix_unary_expression" => prefixed
  | "integer_literal" => number
  | "real_literal" => number
  | "identifier" => identifier
  | _ => other

end Construct

namespace Syntax.Node

/-- What the node contributes. -/
def construct (n : Node) : Construct :=
  Construct.ofKind n.kind

def isIdentifier (n : Node) : Bool :=
  n.kind == "identifier"

/-- Whether the node is a number without a sign. -/
def isNumber (n : Node) : Bool :=
  n.kind == "integer_literal" || n.kind == "real_literal"

end Syntax.Node

end CodeSmell
