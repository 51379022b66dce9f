import SourceIndex.Json.Access
import SourceIndex.SyntaxTree

/-!
# Reading syntax trees

A recorded tree lists its nodes in preorder. Each node is a list: the position of its parent or
`-1`, its kind, `1` when it is named or else `0`, its first byte, the byte after its last, and
the roles that it has in its parent.
-/

namespace SourceIndex

/-- Reads one node of a recorded tree. -/
def TreeEntry.ofJson? : Json → Option TreeEntry
  | .array (parent :: kind :: named :: start :: stop :: roles) => do
    let parent ← parent.int?
    return {
      parent := if parent < 0 then none else some parent.toNat
      kind := ← kind.text?
      named := (← named.nat?) == 1
      span := ⟨← start.nat?, ← stop.nat?⟩
      roles := roles.filterMap fun role => role.text?.bind Role.ofName? }
  | _ => none

/-- Reads a recorded parse. What is no clean tree counts as one with errors. -/
def Parse.ofJson (json : Json) : Parse :=
  if json.flagAt "hasError" then .withErrors
  else
    match ((json.itemsAt "nodes").mapM TreeEntry.ofJson?).bind Node.ofPreorder? with
    | some root => .clean root
    | none => .withErrors

/-- The parse of a file among parses recorded by path. -/
def Parse.ofRecorded (trees : List (String × Json)) (path : String) : Parse :=
  match trees.lookup path with
  | some tree => .ofJson tree
  | none => .withErrors

end SourceIndex
