/-!
# Errors of selection and chunking
-/

namespace SourceIndex

/-- What can go wrong while files are selected and split. -/
inductive IndexError where
  /-- The selection or the options make no sense. -/
  | config (detail : String)
  /-- There is no clean syntax tree. -/
  | parse (detail : String)
  /-- Nothing is known about a language's grammar. -/
  | unsupportedLanguage (language : String)
deriving Repr, DecidableEq

namespace IndexError

/-- The wording of an error. -/
def message : IndexError → String
  | config detail => "invalid configuration: " ++ detail
  | parse detail => "parse failed: " ++ detail
  | unsupportedLanguage language => "no grammar for " ++ language

/-- A filter was given no extension that is usable. -/
def noExtension : IndexError := config "at least one file extension is required"

/-- The syntax tree of a file has errors. -/
def syntaxErrors (filePath : String) : IndexError := parse ("syntax errors in " ++ filePath)

end IndexError

end SourceIndex
