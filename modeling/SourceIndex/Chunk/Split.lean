import SourceIndex.Chunk.Basic
import SourceIndex.Chunk.Identifier
import SourceIndex.Chunk.Partition
import SourceIndex.IndexError

/-!
# Splitting a file into chunks

Under the strategies for functions and classes every outermost definition is a chunk and what
is left of the file is one more. A file stays whole under the strategy for files, when its
language has no grammar, and when its syntax tree has errors.
-/

namespace SourceIndex

/-- The lines of a range: that of its start, and that of its last character that is no blank. -/
def LineRange.of (source : List Char) (range : Span) : LineRange :=
  let first := Text.lineFeeds (Text.takeBytes range.start source) + 1
  { first, last := first + Text.lineFeeds (Text.trimEnd (range.text source)) }

namespace Chunk

/-- The chunk that holds a whole file. -/
def wholeFile (source : String) (filePath : String) (language : Option Language)
    (strategy : Strategy) : Chunk :=
  let range : Span := ⟨0, Text.byteLength source.toList⟩
  { id := ChunkId.of filePath strategy [range], filePath, range, spans := [range]
    lines := LineRange.of source.toList range, granularity := .wholeFile
    name := none, signature := none, parent := none, text := source, docstring := none
    language }

/-- The chunk of a definition. -/
def ofDefinition (source : List Char) (filePath : String) (language : Language)
    (strategy : Strategy) (definition : Definition) : Chunk :=
  { id := ChunkId.of filePath strategy [definition.span], filePath
    range := definition.span, spans := [definition.span]
    lines := LineRange.of source definition.span
    granularity := Granularity.ofStrategy strategy
    name := definition.name, signature := definition.signature, parent := definition.parent
    text := String.ofList (definition.span.text source), docstring := definition.docstring
    language := some language }

/-- The chunk of what the definitions leave, when they leave anything. -/
def ofResidue? (source : List Char) (filePath : String) (language : Language)
    (strategy : Strategy) (spans : List Span) : Option Chunk :=
  match spans.head?, spans.getLast? with
  | some first, some last =>
    let range : Span := ⟨first.start, last.stop⟩
    some
      { id := ChunkId.of filePath strategy spans, filePath, range, spans
        lines := LineRange.of source range, granularity := .residue
        name := none, signature := none, parent := none
        text := String.ofList (spans.flatMap (·.text source)), docstring := none
        language := some language }
  | _, _ => none

/-- The chunks of a source with the given syntax tree, in the order in which they start. -/
def ofTree (source filePath : String) (language : Language) (options : ChunkOptions)
    (root : Node) : List Chunk :=
  let text := source.toList
  let rules := DefinitionRules.of language options
  let settled := Partition.settle text (Definition.all text rules root)
  let chunks := settled.map (ofDefinition text filePath language options.strategy)
  let residue := ofResidue? text filePath language options.strategy (Partition.residue text settled)
  (chunks ++ residue.toList).mergeSort fun a b => a.range.start ≤ b.range.start

/-- Splits a source along its definitions, whatever language its path would tell. -/
def ofDefinitions (source filePath : String) (language : Language) (options : ChunkOptions) :
    Parse → Except IndexError (List Chunk)
  | .withErrors => .error (.syntaxErrors filePath)
  | .clean root => .ok (ofTree source filePath language options root)

end Chunk

/-- Why a file was kept whole. -/
inductive Fallback where
  | noGrammar
  | parseFailed (cause : IndexError)
deriving Repr, DecidableEq

/-- The chunks of a file. -/
structure ChunkedFile where
  chunks : List Chunk
  language : Option Language
  fallback : Option Fallback
deriving Repr

/-- Splits a file, whose path tells its language. This never fails: where the file cannot be
split it is one chunk. -/
def ChunkedFile.of (source filePath : String) (options : ChunkOptions) (parse : Parse) :
    ChunkedFile :=
  let language := Language.ofPath? filePath
  let whole := [Chunk.wholeFile source filePath language options.strategy]
  match options.strategy, language with
  | .wholeFile, _ => { chunks := whole, language, fallback := none }
  | _, none => { chunks := whole, language, fallback := some .noGrammar }
  | _, some known =>
    match Chunk.ofDefinitions source filePath known options parse with
    | .ok chunks => { chunks, language, fallback := none }
    | .error cause => { chunks := whole, language, fallback := some (.parseFailed cause) }

end SourceIndex
