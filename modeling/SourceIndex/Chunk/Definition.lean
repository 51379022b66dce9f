import SourceIndex.Chunk.Basic
import SourceIndex.Chunk.Docstring
import SourceIndex.Chunk.Naming

/-!
# Definitions of a source

The definitions that a file is split along are its outermost matching nodes: nodes of the
strategy's kinds, declarations that bind a function or class expression, and wrappers of either.
A definition takes with it the attributes and, where docstrings are wanted, the comments right
in front of it.
-/

namespace SourceIndex

/-- What decides which nodes are definitions. -/
structure DefinitionRules where
  language : Language
  /-- Kinds of nodes that are definitions. -/
  kinds : List String
  /-- Kinds of expressions that are definitions once they are bound. -/
  valueKinds : List String
  docstrings : Bool
deriving Repr

/-- The rules for a language under the given options. -/
def DefinitionRules.of (language : Language) (options : ChunkOptions) : DefinitionRules :=
  { language, kinds := language.definitionKinds options.strategy,
    valueKinds := language.valueKinds options.strategy, docstrings := options.docstrings }

namespace DefinitionRules

variable (rules : DefinitionRules)

/-- Whether a node has a value that is a definition once bound. -/
def hasDefinitionValue (node : Node) : Bool :=
  (node.child? .value).any fun value => rules.valueKinds.contains value.kind

/-- The declarator of a declaration that binds a definition. -/
def bound? (located : Located) : Option Located :=
  if rules.language.bindingKinds.contains located.node.kind then
    located.namedChildren.find? fun declarator =>
      declarator.node.kind == "variable_declarator" && rules.hasDefinitionValue declarator.node
  else none

/-- A node that is a definition by itself: by its kind or because it binds one. -/
def direct? (located : Located) : Option Located :=
  if rules.kinds.contains located.node.kind then some located else rules.bound? located

/-- The definition that a node is or wraps. A wrapper holds a definition among its children, or
exports an expression that is one. -/
def definition? (located : Located) : Option Located :=
  match rules.direct? located with
  | some found => some found
  | none =>
    if rules.language.wrapperKinds.contains located.node.kind then
      match located.namedChildren.findSome? rules.direct? with
      | some found => some found
      | none =>
        (located.child? .value).filter fun value => rules.valueKinds.contains value.node.kind
    else none

end DefinitionRules

/-- A matching node and the definition that it is or wraps. -/
structure Match where
  /-- The matching node. -/
  outer : Node
  /-- The siblings before the matching node, the nearest first. -/
  before : List Node
  /-- The definition, which may be the matching node itself. -/
  inner : Located

namespace DefinitionRules

variable (rules : DefinitionRules)

mutual

/-- The outermost matches below a node with the given ancestors. -/
def matchesBelow (ancestors : List Node) : Node → List Match
  | ⟨kind, named, span, roles, children⟩ =>
    matchesAmong (⟨kind, named, span, roles, children⟩ :: ancestors) [] children

/-- The outermost matches in some siblings, given the siblings before them. -/
def matchesAmong (ancestors before : List Node) : List Node → List Match
  | [] => []
  | node :: rest =>
    let here :=
      if node.named then
        match rules.definition? ⟨node, ancestors⟩ with
        | some inner => [⟨node, before, inner⟩]
        | none => matchesBelow ancestors node
      else []
    here ++ matchesAmong ancestors (node :: before) rest

end

end DefinitionRules

/-- A definition of a source, with what it takes with it. -/
structure Definition where
  span : Span
  name : Option String
  signature : Option String
  parent : Option String
  docstring : Option String
deriving Repr, DecidableEq, Inhabited

namespace Definition

/-- Whether a comment belongs to what starts at `next`: only blanks are between them with at most
one line feed, counting one that ends the comment, and the comment starts its line. -/
def isAdjacent (source : List Char) (comment : Node) (next : Nat) : Bool :=
  let gap := Text.slice source comment.span.stop next
  let ownFeed := if (comment.text source).getLast? = some '\n' then 1 else 0
  let lineStart := (Text.takeBytes comment.span.start source).reverse.takeWhile (· != '\n')
  Text.allBlank gap && Text.lineFeeds gap + ownFeed ≤ 1 && Text.allBlank lineStart

/-- Where a definition starts with its attributes and comments, and the texts of the comments
in the order of the source. -/
def attach (source : List Char) (rules : DefinitionRules) (start : Nat) :
    List Node → Nat × List (List Char)
  | [] => (start, [])
  | node :: before =>
    if rules.language.attributeKinds.contains node.kind then
      if Text.allBlank (Text.slice source node.span.stop start) then
        attach source rules node.span.start before
      else (start, [])
    else if rules.docstrings && rules.language.commentKinds.contains node.kind &&
        isAdjacent source node start then
      let (first, comments) := attach source rules node.span.start before
      (first, comments ++ [node.text source])
    else (start, [])

/-- Whether a node exports an expression as the default. -/
def isDefaultExport (node : Node) : Bool :=
  node.kind == "export_statement" && (node.child? .value).isSome

/-- The name of a match; an exported expression without one is called `default`. -/
def nameOf (source : List Char) (found : Match) : Option (List Char) :=
  Naming.name? source found.inner.node <|>
    if isDefaultExport found.outer then some "default".toList else none

/-- The definition of a match. -/
def ofMatch (source : List Char) (rules : DefinitionRules) (found : Match) : Definition :=
  let (start, comments) := attach source rules found.outer.span.start found.before
  { span := ⟨start, found.outer.span.stop⟩
    name := (nameOf source found).map String.ofList
    signature := (Naming.signature? source found.inner).map String.ofList
    parent := (Naming.parent? source rules.language found.inner).map String.ofList
    docstring :=
      if rules.docstrings then Docstring.of? source rules.language found.inner.node comments
      else none }

/-- The definitions of a source in the order of their matches. -/
def all (source : List Char) (rules : DefinitionRules) (root : Node) : List Definition :=
  (rules.matchesBelow [] root).map (ofMatch source rules)

end Definition

end SourceIndex
