import SourceIndex.Language

/-!
# Repositories

A reference names a branch of a repository. A snapshot lists the files of the one commit that
the branch was resolved to. The contents of files are fetched afterwards; a file that cannot be
used is skipped with a reason.
-/

namespace SourceIndex

/-- A branch of a repository. -/
structure RepositoryRef where
  owner : String
  repo : String
  branch : String
deriving Repr, DecidableEq, Inhabited

namespace RepositoryRef

/-- Owner and repository. -/
def fullName (ref : RepositoryRef) : String := ref.owner ++ "/" ++ ref.repo

instance : ToString RepositoryRef := ⟨fun ref => ref.fullName ++ "@" ++ ref.branch⟩

end RepositoryRef

/-- A file in the listing of a commit. -/
structure ListedFile where
  path : String
  /-- The name of the file's contents. -/
  sha : String
  size : Nat
deriving Repr, DecidableEq, Inhabited

/-- The listing of one commit. -/
structure Snapshot where
  repository : RepositoryRef
  commitSha : String
  treeSha : String
  /-- The files in the order of the listing. -/
  files : List ListedFile
  /-- The listing was cut short. -/
  truncated : Bool
deriving Repr, Inhabited

/-- A file with its contents. -/
structure SourceFile where
  path : String
  content : String
deriving Repr, DecidableEq, Inhabited

/-- The extension of a file with its dot, in lower case; empty when there is none. -/
def Path.dottedExtension (path : String) : String :=
  match Path.extension? path with
  | some extension => "." ++ extension
  | none => ""

/-- A selected file that is not chunked. -/
structure SkippedFile where
  path : String
  reason : String
deriving Repr, DecidableEq, Inhabited

/-- The contents of selected files, in the order of the selection. -/
structure FetchedFiles where
  files : List SourceFile
  skipped : List SkippedFile
deriving Repr, DecidableEq, Inhabited

end SourceIndex
