import SourceIndex.Language.Grammar
import SourceIndex.SyntaxTree
import SourceIndex.Text.Blank
import SourceIndex.Text.Lines

/-!
# Names, signatures and parents of definitions

The name of a definition is found below its node, the name of its container above it. The
signature is the definition's header on one line.
-/

namespace SourceIndex.Naming

mutual

/-- The name of a definition: the type of an implementation block, the text of an identifier,
the child that is the name, or the name of its declarator or of its specification. -/
def name? (source : List Char) : Node → Option (List Char)
  | ⟨kind, named, span, roles, children⟩ =>
    let node : Node := ⟨kind, named, span, roles, children⟩
    if kind = "impl_item" then (node.child? .type).map (·.text source)
    else if node.kindEndsWith "identifier" then some (node.text source)
    else match node.child? .name with
      | some name => some (name.text source)
      | none =>
        if (node.child? .declarator).isSome then declaratorName? source children
        else specificationName? source children

/-- The name of the first declarator among some children. -/
def declaratorName? (source : List Char) : List Node → Option (List Char)
  | [] => none
  | child :: rest =>
    if child.roles.contains .declarator then name? source child else declaratorName? source rest

/-- The name of the first specification, among some children, that has one. -/
def specificationName? (source : List Char) : List Node → Option (List Char)
  | [] => none
  | child :: rest =>
    let found :=
      if child.named && child.kindEndsWith "_spec" then name? source child else none
    found <|> specificationName? source rest

end

/-- Whether a node of this kind contains definitions that it is the parent of. -/
def isContainer (language : Language) (kind : String) : Bool :=
  (language.definitionKinds .classes).contains kind || (language.valueKinds .classes).contains kind

/-- The name of the nearest container among the ancestors of a definition. A container without
a name of its own has that of the declarator that binds it. -/
def container? (source : List Char) (language : Language) : List Node → Option (List Char)
  | [] => none
  | node :: above =>
    if isContainer language node.kind then
      name? source node <|> (above.head?.bind fun binding =>
        if binding.kind = "variable_declarator" then name? source binding else none)
    else container? source language above

/-- The type of a Go method's receiver, without leading stars. -/
def receiverType? (source : List Char) (method : Node) : Option (List Char) := do
  let receiver ← method.child? .receiver
  let parameter ← receiver.namedChildren.head?
  let type ← parameter.child? .type
  return (type.text source).dropWhile (· == '*')

/-- The name of what a definition belongs to. -/
def parent? (source : List Char) (language : Language) (definition : Located) :
    Option (List Char) :=
  if language = .go ∧ definition.node.kind = "method_declaration" then
    receiverType? source definition.node
  else container? source language definition.ancestors

/-- Where the header of a definition starts: at the keyword of the declaration when a
declarator binds the definition. -/
def headerStart (definition : Located) : Nat :=
  if definition.node.kind = "variable_declarator" then
    match definition.parent? with
    | some declaration => declaration.span.start
    | none => definition.node.span.start
  else definition.node.span.start

/-- The body of a definition, which ends its header. -/
def body? (definition : Node) : Option Node :=
  if definition.kind = "variable_declarator" then
    (definition.child? .value).bind (·.child? .body)
  else definition.child? .body

/-- The header of a definition: all before the body, or the first line where there is none. -/
def header (source : List Char) (definition : Located) : List Char :=
  let start := headerStart definition
  let wholeLine := Text.firstLine (Text.slice source start definition.node.span.stop)
  match body? definition.node with
  | some body =>
    if start < body.span.start then Text.slice source start body.span.start else wholeLine
  | none => wholeLine

/-- The marks that open a body. -/
def opensBody (c : Char) : Bool := c == '\x7b' || c == ':'

/-- The header on one line, its words separated by single spaces, without the mark that opens
the body. -/
def signature? (source : List Char) (definition : Located) : Option (List Char) :=
  let line := Text.trimEnd (Text.trimEndWhere opensBody (Text.collapse (header source definition)))
  if line.isEmpty then none else some line

end SourceIndex.Naming
