import SourceIndex.Language
import SourceIndex.Strategy

/-!
# Node kinds of the grammars

For each language and strategy, the kinds of syntax nodes that count as definitions, that bind
a function or class expression to a name, that wrap a definition (decorators, exports,
templates), and that may be attached in front of one (attributes and comments).
-/

namespace SourceIndex.Language

/-- The languages of the JavaScript family share their node kinds. -/
def isScript : Language → Bool
  | javascript | typescript | tsx => true
  | _ => false

/-- Kinds of nodes that are definitions under a strategy. No kind is one when files stay whole,
and a language without classes has none for them. -/
def definitionKinds : Language → Strategy → List String
  | _, .wholeFile => []
  | rust, .functions => ["function_item"]
  | rust, .classes => ["struct_item", "enum_item", "union_item", "trait_item", "impl_item"]
  | python, .functions => ["function_definition"]
  | python, .classes => ["class_definition"]
  | javascript, .functions | typescript, .functions | tsx, .functions =>
    ["function_declaration", "generator_function_declaration", "method_definition"]
  | javascript, .classes => ["class_declaration"]
  | typescript, .classes | tsx, .classes =>
    ["class_declaration", "abstract_class_declaration", "interface_declaration"]
  | go, .functions => ["function_declaration", "method_declaration"]
  | go, .classes => ["type_declaration"]
  | java, .functions => ["method_declaration", "constructor_declaration"]
  | java, .classes =>
    ["class_declaration", "interface_declaration", "enum_declaration", "record_declaration"]
  | c, .functions | cpp, .functions => ["function_definition"]
  | c, .classes => []
  | cpp, .classes => ["class_specifier"]

/-- Kinds of expressions that define a function or a class once they are bound to a name or
exported as the default. -/
def valueKinds (language : Language) (strategy : Strategy) : List String :=
  if language.isScript then
    match strategy with
    | .functions => ["arrow_function", "function_expression", "generator_function"]
    | .classes => ["class"]
    | .wholeFile => []
  else []

/-- Kinds of declarations whose declarators may bind such an expression. -/
def bindingKinds (language : Language) : List String :=
  if language.isScript then ["lexical_declaration", "variable_declaration"] else []

/-- Kinds of nodes that wrap a definition and belong to its chunk. -/
def wrapperKinds : Language → List String
  | python => ["decorated_definition"]
  | javascript | typescript | tsx => ["export_statement"]
  | cpp => ["template_declaration"]
  | _ => []

/-- Kinds of nodes that belong to the definition after them, even across blank lines. -/
def attributeKinds : Language → List String
  | rust => ["attribute_item"]
  | _ => []

/-- Kinds of comment nodes. -/
def commentKinds : Language → List String
  | rust | java => ["line_comment", "block_comment"]
  | _ => ["comment"]

end SourceIndex.Language
