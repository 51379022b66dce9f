import SourceIndex.Text.Bytes

/-!
# Syntax trees

What a grammar makes of a source: an ordered tree of nodes, each with its kind, its byte span
and the roles it has in its parent. Anonymous nodes (keywords, punctuation) stand among the
children but are no *named* children. A parse either is clean and has a root, or met errors.

`Located` is a node together with its ancestors, the nearest first.
-/

namespace SourceIndex

/-- The roles of a child that the rules on definitions ask for. -/
inductive Role where
  | body
  | declarator
  | name
  | receiver
  | type
  | value
deriving Repr, DecidableEq

/-- The role that a grammar calls by the given name. -/
def Role.ofName? : String → Option Role
  | "body" => some body
  | "declarator" => some declarator
  | "name" => some name
  | "receiver" => some receiver
  | "type" => some type
  | "value" => some value
  | _ => none

/-- A node of a syntax tree. -/
structure Node where
  kind : String
  named : Bool
  span : Span
  /-- The roles that this node has in its parent. -/
  roles : List Role
  children : List Node
deriving Repr, Inhabited

namespace Node

/-- The children other than keywords and punctuation. -/
def namedChildren (node : Node) : List Node := node.children.filter (·.named)

/-- The child with the given role. -/
def child? (node : Node) (role : Role) : Option Node := node.children.find? (·.roles.contains role)

/-- The source text of a node. -/
def text (node : Node) (source : List Char) : List Char := node.span.text source

/-- Whether the node's kind ends with the given word. -/
def kindEndsWith (node : Node) (word : String) : Bool := word.toList.isSuffixOf node.kind.toList

end Node

/-- What parsing a source gives. -/
inductive Parse where
  /-- The tree has error nodes or missing nodes. -/
  | withErrors
  | clean (root : Node)
deriving Repr, Inhabited

/-- A node below its ancestors, of which the nearest comes first. -/
structure Located where
  node : Node
  ancestors : List Node

namespace Located

/-- A child of a located node. -/
def below (parent : Located) (child : Node) : Located :=
  { node := child, ancestors := parent.node :: parent.ancestors }

/-- The named children with their ancestors. -/
def namedChildren (parent : Located) : List Located := parent.node.namedChildren.map parent.below

/-- The child with the given role. -/
def child? (parent : Located) (role : Role) : Option Located :=
  (parent.node.child? role).map parent.below

/-- The parent of a node that is not the root. -/
def parent? (located : Located) : Option Node := located.ancestors.head?

end Located

/-- One node of a tree that is listed in preorder. -/
structure TreeEntry where
  /-- The position of the parent in the list, none for the root. -/
  parent : Option Nat
  kind : String
  named : Bool
  span : Span
  roles : List Role
deriving Repr, Inhabited

namespace TreeEntry

/-- Places an entry above the children collected for it and hands the node to its parent. -/
def place (entry : TreeEntry) (position : Nat) (waiting : Array (List Node)) :
    Node × Array (List Node) :=
  let node : Node :=
    { kind := entry.kind, named := entry.named, span := entry.span, roles := entry.roles,
      children := waiting.getD position [] }
  match entry.parent with
  | none => (node, waiting)
  | some above => (node, waiting.modify above (node :: ·))

/-- Builds nodes from the last entry to the first, so that every child is ready before its
parent; the node built last is the root. -/
def assemble : List (TreeEntry × Nat) → Option Node × Array (List Node) → Option Node
  | [], (root, _) => root
  | (entry, position) :: earlier, (_, waiting) =>
    let (node, waiting) := entry.place position waiting
    assemble earlier (some node, waiting)

end TreeEntry

/-- The tree that a list of entries in preorder describes; an empty list describes none. -/
def Node.ofPreorder? (entries : List TreeEntry) : Option Node :=
  TreeEntry.assemble entries.zipIdx.reverse (none, Array.replicate entries.length [])

end SourceIndex
