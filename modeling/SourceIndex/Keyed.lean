/-!
# Lists with keys

Values under distinct strings, in the order of the strings. `set` replaces the value of a key
that is there and keeps the order.
-/

namespace SourceIndex

/-- Values with their keys. -/
abbrev Keyed (α : Type) := List (String × α)

namespace Keyed

/-- The value under a key. -/
def get? (key : String) : Keyed α → Option α
  | [] => none
  | (found, value) :: rest => if found = key then some value else get? key rest

/-- Puts a value under a key. -/
def set (key : String) (value : α) : Keyed α → Keyed α
  | [] => [(key, value)]
  | (found, old) :: rest =>
    if found = key then (key, value) :: rest
    else if key < found then (key, value) :: (found, old) :: rest
    else (found, old) :: set key value rest

theorem get?_set_self (key : String) (value : α) (map : Keyed α) :
    get? key (set key value map) = some value := by
  fun_induction set key value map with
  | case1 => simp [get?]
  | case2 => simp [get?]
  | case3 => simp [get?]
  | case4 found old rest h _ ih => simp [get?, h, ih]

theorem get?_set_of_ne {key other : String} (h : other ≠ key) (value : α) (map : Keyed α) :
    get? other (set key value map) = get? other map := by
  fun_induction set key value map with
  | case1 => simp [get?, h.symm]
  | case2 old rest => simp [get?, h.symm]
  | case3 found old rest _ _ => simp [get?, h.symm]
  | case4 found old rest _ _ ih => simp [get?, ih]

/-- Counts one more of a key. -/
def count (key : String) (map : Keyed Nat) : Keyed Nat := set key ((get? key map).getD 0 + 1) map

end Keyed

end SourceIndex
