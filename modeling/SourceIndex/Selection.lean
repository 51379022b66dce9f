import SourceIndex.IndexError
import SourceIndex.Text.Blank

/-!
# Selecting files

A filter accepts a path by its ending and refuses it by any of the excluded texts that it
contains. A selection is the accepted files in their order, up to a cap.
-/

namespace SourceIndex

/-- Which paths are selected. -/
structure FileFilter where
  /-- Accepted endings, in lower case, each with its dot. -/
  endings : List (List Char)
  /-- Texts that no selected path contains. -/
  exclude : List (List Char)
deriving Repr, DecidableEq, Inhabited

namespace FileFilter

/-- An extension in lower case, without outer blanks and then without leading dots. -/
def normalizedExtension (extension : String) : List Char :=
  ((Text.trim extension.toList).dropWhile (· == '.')).map Char.toLower

/-- The filter for the given extensions and excluded texts. Entries that are empty once
normalized are dropped, and one extension has to be left. -/
def ofLists (extensions exclude : List String) : Except IndexError FileFilter :=
  let endings := ((extensions.map normalizedExtension).filter (!·.isEmpty)).map ('.' :: ·)
  if endings.isEmpty then .error .noExtension
  else .ok { endings, exclude := (exclude.map (·.toList)).filter (!·.isEmpty) }

/-- Whether a path has an accepted ending, in any case, and contains no excluded text. -/
def accepts (filter : FileFilter) (path : String) : Bool :=
  let lowered := path.toList.map Char.toLower
  filter.endings.any (·.isSuffixOf lowered) &&
    !filter.exclude.any (Text.occursIn · path.toList)

end FileFilter

/-- The files that a filter and a cap leave. -/
structure Selection (α : Type) where
  files : List α
  /-- More files were accepted than the cap allows. -/
  truncated : Bool
deriving Repr

/-- Goes on with a selection that has `count` files so far. The search is over at the first
accepted file beyond the cap, so what follows that file is not looked at. -/
def selectFrom (filter : FileFilter) (cap : Nat) (pathOf : α → String) :
    (count : Nat) → List α → Selection α
  | _, [] => { files := [], truncated := false }
  | count, file :: rest =>
    if !filter.accepts (pathOf file) then selectFrom filter cap pathOf count rest
    else if 0 < cap && count == cap then { files := [], truncated := true }
    else
      let others := selectFrom filter cap pathOf (count + 1) rest
      { others with files := file :: others.files }

/-- The first `cap` accepted files in their order, all of them when the cap is zero. -/
def select (filter : FileFilter) (cap : Nat) (pathOf : α → String) (files : List α) :
    Selection α :=
  selectFrom filter cap pathOf 0 files

end SourceIndex
