import TreeLint.Value.Basic

/-!
# Kinds of tree nodes

The closed set of categories that a node can have, with the tag that names each of them in a dump.
-/

namespace TreeLint

inductive Kind where
  | compilationUnit
  | namespaceScope
  | classType
  | interfaceType
  | traitType
  | function
  | method
  | closure
  | formalParameters
  | formalParameter
  | variableDeclarator
  | variableUse
  | compoundVariable
  | expression
  | arrayIndexExpression
  | stringIndexExpression
  | propertyPostfix
  | methodPostfix
  | functionPostfix
  | memberPrimaryPrefix
  | arguments
  | literal
  | identifier
  | scope
  | statement
  | assignmentExpression
  | returnStatement
  | selfReference
  | parentReference
  | staticReference
  deriving DecidableEq, Repr

namespace Kind

def tag : Kind → String
  | .compilationUnit => "compilation_unit"
  | .namespaceScope => "namespace"
  | .classType => "class"
  | .interfaceType => "interface"
  | .traitType => "trait"
  | .function => "function"
  | .method => "method"
  | .closure => "closure"
  | .formalParameters => "formal_parameters"
  | .formalParameter => "formal_parameter"
  | .variableDeclarator => "variable_declarator"
  | .variableUse => "variable"
  | .compoundVariable => "compound_variable"
  | .expression => "expression"
  | .arrayIndexExpression => "array_index_expression"
  | .stringIndexExpression => "string_index_expression"
  | .propertyPostfix => "property_postfix"
  | .methodPostfix => "method_postfix"
  | .functionPostfix => "function_postfix"
  | .memberPrimaryPrefix => "member_primary_prefix"
  | .arguments => "arguments"
  | .literal => "literal"
  | .identifier => "identifier"
  | .scope => "scope"
  | .statement => "statement"
  | .assignmentExpression => "assignment_expression"
  | .returnStatement => "return_statement"
  | .selfReference => "self_reference"
  | .parentReference => "parent_reference"
  | .staticReference => "static_reference"

def all : List Kind :=
  [.compilationUnit, .namespaceScope, .classType, .interfaceType, .traitType, .function,
    .method, .closure, .formalParameters, .formalParameter, .variableDeclarator, .variableUse,
    .compoundVariable, .expression, .arrayIndexExpression, .stringIndexExpression,
    .propertyPostfix, .methodPostfix, .functionPostfix, .memberPrimaryPrefix, .arguments,
    .literal, .identifier, .scope, .statement, .assignmentExpression, .returnStatement,
    .selfReference, .parentReference, .staticReference]

def ofTag? (tag : String) : Option Kind := all.find? fun kind => kind.tag == tag

/-- The kind that a value names; only a text names one. -/
def ofValue? : Value → Option Kind
  | .str tag => ofTag? tag
  | _ => none

theorem mem_all (kind : Kind) : kind ∈ all := by cases kind <;> decide

theorem ofTag?_tag (kind : Kind) : ofTag? kind.tag = some kind := by cases kind <;> decide

/-- The kinds of type declarations. -/
def isType : Kind → Bool
  | .classType | .interfaceType | .traitType => true
  | _ => false

def isCallable : Kind → Bool
  | .function | .method => true
  | _ => false

/-- The kinds that can carry a doc comment with directives. -/
def isDeclaration (kind : Kind) : Bool := kind.isCallable || kind.isType

/-- The kinds of expressions that look a member up by its index. -/
def isIndex : Kind → Bool
  | .arrayIndexExpression | .stringIndexExpression => true
  | _ => false

end Kind

end TreeLint
