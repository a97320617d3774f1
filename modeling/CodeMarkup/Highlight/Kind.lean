/-!
# Kinds of syntax

A highlighted token is coloured by its kind. The parser's node names differ from grammar to grammar,
but common constructs carry common names, so two tables cover all grammars: one for named nodes, by
the node's name, and one for the anonymous nodes (keywords and signs), by their text.
-/

namespace CodeMarkup

/-- What a token is, as far as its colour goes. -/
inductive Kind where
  /-- a reserved word -/
  | keyword
  /-- text the program handles, quotes and escapes included -/
  | string
  /-- a numeral -/
  | number
  /-- a remark to the reader -/
  | comment
  /-- the name of a function where it is defined or called -/
  | function
  /-- the name of a type -/
  | type
  /-- any other name -/
  | variable
  /-- a sign that computes or compares -/
  | operator
  /-- a sign that groups or separates -/
  | punctuation
  /-- the name of a field or member -/
  | property
  /-- a word that stands for a fixed value -/
  | constant
  /-- the name of a module -/
  | moduleName
  /-- a parameter of a function -/
  | parameter
  /-- a label, lifetime, attribute or decorator -/
  | label
  /-- anything else; it takes the theme's text colour -/
  | plain
  deriving DecidableEq, Repr

namespace Kind

/-- Every kind. -/
def all : List Kind :=
  [.keyword, .string, .number, .comment, .function, .type, .variable, .operator, .punctuation,
    .property, .constant, .moduleName, .parameter, .label, .plain]

/-! ## Named nodes -/

/-- The kind of a named node, by the node's name. -/
def ofNodeName (name : String) : Kind :=
  match name with
  | "comment" | "line_comment" | "block_comment" | "doc_comment" => .comment
  | "string" | "string_literal" | "raw_string" | "raw_string_literal" | "char_literal"
  | "string_content" | "escape_sequence" | "interpreted_string_literal" | "template_string" =>
    .string
  | "number" | "integer" | "float" | "integer_literal" | "float_literal" | "number_literal" =>
    .number
  | "keyword" | "storage_class" | "visibility_modifier" | "mutable_specifier" => .keyword
  | "type" | "type_identifier" | "primitive_type" | "predefined_type" => .type
  | "identifier" | "variable" | "shorthand_field_identifier" => .variable
  | "property" | "property_identifier" | "field_identifier" => .property
  | "true" | "false" | "null" | "none" | "nil" | "boolean" | "constant" => .constant
  | "namespace" | "module" => .moduleName
  | "parameter" | "formal_parameter" => .parameter
  | "label" | "loop_label" | "lifetime" | "attribute_item" | "inner_attribute_item"
  | "decorator" => .label
  | _ => .plain

/-! ## Anonymous nodes -/

/-- Whether a character is an ASCII letter or an underscore. -/
def isWordChar (c : Char) : Bool :=
  c.isAlpha || c = '_'

/-- Whether a character is one of the printing signs of ASCII that are neither letter nor digit. -/
def isSign (c : Char) : Bool :=
  0x21 ≤ c.toNat && c.toNat ≤ 0x7E && !c.isAlphanum

/-- The kind of an anonymous node, by its text: fixed values, grouping signs and quotation marks are
listed, every other word is a keyword, and every other run of signs an operator. -/
def ofText (text : String) : Kind :=
  match text with
  | "true" | "false" | "null" | "nil" | "None" | "True" | "False" => .constant
  | "(" | ")" | "[" | "]" | "\x7b" | "\x7d" | ";" | "," | "." | ":" | "::" => .punctuation
  | "\"" | "`" => .string
  | _ =>
    if text ≠ "" ∧ text.toList.all isWordChar then .keyword
    else if text.toList.all isSign then .operator
    else .plain

/-! ## Function names -/

/-- The field of a node in which the function it defines or calls is named, if it does either. -/
def calleeField? (name : String) : Option String :=
  match name with
  | "function_item" | "function_definition" | "function_declaration" | "method_definition" =>
    some "name"
  | "call_expression" => some "function"
  | "macro_invocation" => some "macro"
  | _ => none

/-! ## Whole constructs -/

/-- Whether a named construct is coloured as a whole, parts and all. -/
def isWhole (name : String) : Bool :=
  match name with
  | "string" | "string_literal" | "raw_string" | "raw_string_literal" | "template_string"
  | "comment" | "line_comment" | "block_comment" => true
  | _ => false

end Kind

end CodeMarkup
