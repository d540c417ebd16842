/-!
The kinds of node in the tree of a component's source, and the fields under which a node holds its
children. Each kind and field has one name; what no rule of the analysis looks at is kept by its
name alone.
-/

namespace SuiteDraft

/-- The kind of a node. -/
inductive Kind where
  | program
  | fault
  | comment
  | identifier
  | propertyIdentifier
  | exportStatement
  | exportClause
  | defaultWord
  | functionDeclaration
  | generatorFunctionDeclaration
  | functionExpression
  | functionWord
  | generatorFunction
  | arrowFunction
  | methodDefinition
  | requiredParameter
  | optionalParameter
  | variableDeclarator
  | assignmentPattern
  | arrayPattern
  | objectPattern
  | shorthandPattern
  | pairPattern
  | objectAssignmentPattern
  | restPattern
  | array
  | callExpression
  | arguments
  | memberExpression
  | number
  | trueWord
  | falseWord
  | string
  | stringFragment
  | escapeSequence
  | templateString
  | templateSubstitution
  | characterReference
  | jsxElement
  | jsxSelfClosingElement
  | jsxAttribute
  | jsxNamespaceName
  | jsxExpression
  | jsxText
  | other (name : String)
  deriving DecidableEq

-- The kinds that have a constructor of their own, each with its name.
def Kind.table : List (String × Kind) := [
  ("program", .program), ("ERROR", .fault), ("comment", .comment), ("identifier", .identifier),
  ("property_identifier", .propertyIdentifier), ("export_statement", .exportStatement),
  ("export_clause", .exportClause), ("default", .defaultWord),
  ("function_declaration", .functionDeclaration),
  ("generator_function_declaration", .generatorFunctionDeclaration),
  ("function_expression", .functionExpression), ("function", .functionWord),
  ("generator_function", .generatorFunction), ("arrow_function", .arrowFunction),
  ("method_definition", .methodDefinition), ("required_parameter", .requiredParameter),
  ("optional_parameter", .optionalParameter), ("variable_declarator", .variableDeclarator),
  ("assignment_pattern", .assignmentPattern), ("array_pattern", .arrayPattern),
  ("object_pattern", .objectPattern), ("shorthand_property_identifier_pattern", .shorthandPattern),
  ("pair_pattern", .pairPattern), ("object_assignment_pattern", .objectAssignmentPattern),
  ("rest_pattern", .restPattern), ("array", .array), ("call_expression", .callExpression),
  ("arguments", .arguments), ("member_expression", .memberExpression), ("number", .number),
  ("true", .trueWord), ("false", .falseWord), ("string", .string),
  ("string_fragment", .stringFragment), ("escape_sequence", .escapeSequence),
  ("template_string", .templateString), ("template_substitution", .templateSubstitution),
  ("html_character_reference", .characterReference), ("jsx_element", .jsxElement),
  ("jsx_self_closing_element", .jsxSelfClosingElement), ("jsx_attribute", .jsxAttribute),
  ("jsx_namespace_name", .jsxNamespaceName), ("jsx_expression", .jsxExpression),
  ("jsx_text", .jsxText)]

def Kind.ofName (name : String) : Kind := (table.lookup name).getD (.other name)

/-- The field under which a node holds a child. -/
inductive Field where
  | name
  | value
  | declaration
  | source
  | exportedName
  | function
  | arguments
  | object
  | property
  | parameter
  | parameters
  | pattern
  | left
  | key
  | body
  | openTag
  | other (name : String)
  deriving DecidableEq

-- The fields that have a constructor of their own, each with its name.
def Field.table : List (String × Field) := [
  ("name", .name), ("value", .value), ("declaration", .declaration), ("source", .source),
  ("alias", .exportedName), ("function", .function), ("arguments", .arguments), ("object", .object),
  ("property", .property), ("parameter", .parameter), ("parameters", .parameters),
  ("pattern", .pattern), ("left", .left), ("key", .key), ("body", .body), ("open_tag", .openTag)]

def Field.ofName (name : String) : Field := (table.lookup name).getD (.other name)

def Kind.isFunction : Kind → Bool
  | functionDeclaration | generatorFunctionDeclaration | functionExpression | functionWord
  | generatorFunction | arrowFunction | methodDefinition => true
  | _ => false

-- The functions that stand as a value: an initialiser, an argument, an export.
def Kind.isFunctionValue : Kind → Bool
  | arrowFunction | functionExpression | functionWord => true
  | _ => false

def Kind.isFunctionDeclaration : Kind → Bool
  | functionDeclaration | generatorFunctionDeclaration => true
  | _ => false

end SuiteDraft
