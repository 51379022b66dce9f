import SourceIndex.Json.Basic

/-!
# Looking into JSON values

The contents of a value of a known kind, none when it is of another kind. A member that is null
counts as missing.
-/

namespace SourceIndex.Json

/-- The text of a string. -/
def text? : Json → Option String
  | string (.text value) => some value
  | _ => none

/-- The value of a truth value. -/
def bool? : Json → Option Bool
  | bool value => some value
  | _ => none

/-- The value of a number. -/
def scalar? : Json → Option Scalar
  | number value => value.scalar?
  | _ => none

/-- The value of a natural number. -/
def nat? (json : Json) : Option Nat :=
  match json.scalar? with
  | some (.natural n) => some n
  | _ => none

/-- The value of an integer. -/
def int? (json : Json) : Option Int :=
  match json.scalar? with
  | some (.natural n) => some n
  | some (.negative n) => some (-n)
  | _ => none

/-- The items of a list. -/
def items? : Json → Option (List Json)
  | array items => some items
  | _ => none

/-- The members of an object, under their keys. -/
def members? : Json → Option (List (String × Json))
  | object members => members.mapM fun
    | (.text key, value) => some (key, value)
    | _ => none
  | _ => none

/-- The value of a member that is not null. -/
def member (json : Json) (key : String) : Option Json :=
  match json.get? key with
  | some null => none
  | found => found

/-- The text of a member. -/
def textAt? (json : Json) (key : String) : Option String := (json.member key).bind text?

/-- The natural number of a member. -/
def natAt? (json : Json) (key : String) : Option Nat := (json.member key).bind nat?

/-- The truth value of a member, false when there is none. -/
def flagAt (json : Json) (key : String) : Bool := ((json.member key).bind bool?).getD false

/-- The items of a member, none of them when there is no such list. -/
def itemsAt (json : Json) (key : String) : List Json := ((json.member key).bind items?).getD []

/-- The members of a member. -/
def membersAt (json : Json) (key : String) : List (String × Json) :=
  ((json.member key).bind members?).getD []

/-- The texts in the list of a member. -/
def textsAt (json : Json) (key : String) : List String := (json.itemsAt key).filterMap text?

end SourceIndex.Json
