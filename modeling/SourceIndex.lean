import SourceIndex.Chunk.Basic
import SourceIndex.Chunk.Definition
import SourceIndex.Chunk.Docstring
import SourceIndex.Chunk.EmbeddingText
import SourceIndex.Chunk.Identifier
import SourceIndex.Chunk.Naming
import SourceIndex.Chunk.Partition
import SourceIndex.Chunk.Split
import SourceIndex.CommandLine
import SourceIndex.Decimal.Shortest
import SourceIndex.Digest.Blake3
import SourceIndex.Digest.Hex
import SourceIndex.Digest.SipHash
import SourceIndex.Embedding.Batches
import SourceIndex.Embedding.Embedder
import SourceIndex.Embedding.Error
import SourceIndex.Embedding.Mock
import SourceIndex.Embedding.OpenAi
import SourceIndex.Embedding.Output
import SourceIndex.File
import SourceIndex.Http.Message
import SourceIndex.Http.Recording
import SourceIndex.Http.Session
import SourceIndex.Http.Status
import SourceIndex.IndexError
import SourceIndex.IndexRequest
import SourceIndex.Json.Access
import SourceIndex.Json.Basic
import SourceIndex.Json.Decode
import SourceIndex.Json.Number
import SourceIndex.Json.Reader
import SourceIndex.Json.Writer
import SourceIndex.Keyed
import SourceIndex.Language
import SourceIndex.Language.Grammar
import SourceIndex.Main
import SourceIndex.Proofs.Chunk.Apart
import SourceIndex.Proofs.Chunk.Attached
import SourceIndex.Proofs.Chunk.Attributes
import SourceIndex.Proofs.Chunk.Blanks
import SourceIndex.Proofs.Chunk.CheckedDefinition
import SourceIndex.Proofs.Chunk.CheckedFile
import SourceIndex.Proofs.Chunk.Containment
import SourceIndex.Proofs.Chunk.DocComments
import SourceIndex.Proofs.Chunk.EmbeddingText
import SourceIndex.Proofs.Chunk.Gaps
import SourceIndex.Proofs.Chunk.Identifier
import SourceIndex.Proofs.Chunk.Kept
import SourceIndex.Proofs.Chunk.LineComments
import SourceIndex.Proofs.Chunk.LineRange
import SourceIndex.Proofs.Chunk.Lossless
import SourceIndex.Proofs.Chunk.Matches
import SourceIndex.Proofs.Chunk.OnePerNode
import SourceIndex.Proofs.Chunk.Outermost
import SourceIndex.Proofs.Chunk.Settling
import SourceIndex.Proofs.Chunk.Signatures
import SourceIndex.Proofs.Chunk.Switch
import SourceIndex.Proofs.Chunk.Wrappers
import SourceIndex.Proofs.CommaLists
import SourceIndex.Proofs.CommandLine
import SourceIndex.Proofs.Distinct
import SourceIndex.Proofs.Embedding.Carrying
import SourceIndex.Proofs.Embedding.Collection
import SourceIndex.Proofs.Embedding.Faithful
import SourceIndex.Proofs.Embedding.Fewest
import SourceIndex.Proofs.Embedding.Fitting
import SourceIndex.Proofs.Embedding.Items
import SourceIndex.Proofs.Embedding.Placewise
import SourceIndex.Proofs.Embedding.Plan
import SourceIndex.Proofs.Embedding.Reply
import SourceIndex.Proofs.Embedding.Requests
import SourceIndex.Proofs.Embedding.Retrying
import SourceIndex.Proofs.Embedding.Sound
import SourceIndex.Proofs.Embedding.Transparency
import SourceIndex.Proofs.Http.Attempts
import SourceIndex.Proofs.Http.Blind
import SourceIndex.Proofs.Http.Breaks
import SourceIndex.Proofs.Http.Events
import SourceIndex.Proofs.Http.Retry
import SourceIndex.Proofs.Http.Rounds
import SourceIndex.Proofs.IndexRequest
import SourceIndex.Proofs.Json.Documents
import SourceIndex.Proofs.Json.Given
import SourceIndex.Proofs.Json.Literals
import SourceIndex.Proofs.Json.Locality
import SourceIndex.Proofs.Json.Numbers
import SourceIndex.Proofs.Json.Records
import SourceIndex.Proofs.Json.Spelling
import SourceIndex.Proofs.Json.Splitting
import SourceIndex.Proofs.Json.Texts
import SourceIndex.Proofs.Keyed
import SourceIndex.Proofs.Pairing
import SourceIndex.Proofs.Repository.Requests
import SourceIndex.Proofs.Repository.Retrying
import SourceIndex.Proofs.Repository.Splitting
import SourceIndex.Proofs.Run.Accounted
import SourceIndex.Proofs.Run.Blame
import SourceIndex.Proofs.Run.Branches
import SourceIndex.Proofs.Run.Cancellation
import SourceIndex.Proofs.Run.Cap
import SourceIndex.Proofs.Run.Completion
import SourceIndex.Proofs.Run.Confidential
import SourceIndex.Proofs.Run.History
import SourceIndex.Proofs.Run.Identifiers
import SourceIndex.Proofs.Run.OneCommit
import SourceIndex.Proofs.Run.Projection
import SourceIndex.Proofs.Run.Records
import SourceIndex.Proofs.Run.Refusal
import SourceIndex.Proofs.Run.Runnable
import SourceIndex.Proofs.Run.Stages
import SourceIndex.Proofs.Run.Tally
import SourceIndex.Proofs.Run.Trace
import SourceIndex.Proofs.Run.Unembedded
import SourceIndex.Proofs.Run.Validation
import SourceIndex.Proofs.Selection
import SourceIndex.Proofs.Settings
import SourceIndex.Proofs.Sorting
import SourceIndex.Proofs.SyntaxTree.WellFormed
import SourceIndex.Proofs.Text.Beginnings
import SourceIndex.Proofs.Text.Boundaries
import SourceIndex.Proofs.Text.Cuts
import SourceIndex.Proofs.Text.Decoding
import SourceIndex.Proofs.Text.Encoding
import SourceIndex.Proofs.Text.Ink
import SourceIndex.Proofs.Text.Lines
import SourceIndex.Proofs.Text.Numerals
import SourceIndex.Proofs.Text.Parts
import SourceIndex.Proofs.Text.Tiling
import SourceIndex.Proofs.Text.Trimming
import SourceIndex.Proofs.Text.Words
import SourceIndex.Proofs.Url.Endings
import SourceIndex.Proofs.Url.Percent
import SourceIndex.Proofs.Url.Reading
import SourceIndex.Repository.Basic
import SourceIndex.Repository.Error
import SourceIndex.Repository.GitHub
import SourceIndex.Run.Chunking
import SourceIndex.Run.Context
import SourceIndex.Run.Embedding
import SourceIndex.Run.Error
import SourceIndex.Run.Format
import SourceIndex.Run.Pipeline
import SourceIndex.Run.Record
import SourceIndex.Run.Result
import SourceIndex.RunPlan
import SourceIndex.Secret
import SourceIndex.Selection
import SourceIndex.Settings.Basic
import SourceIndex.Settings.Load
import SourceIndex.Strategy
import SourceIndex.SyntaxTree
import SourceIndex.SyntaxTree.Reader
import SourceIndex.Text.Blank
import SourceIndex.Text.Bytes
import SourceIndex.Text.Composition
import SourceIndex.Text.Decimal
import SourceIndex.Text.Direction
import SourceIndex.Text.Joining
import SourceIndex.Text.Lines
import SourceIndex.Text.Marks
import SourceIndex.Text.Pieces
import SourceIndex.Text.Quoted
import SourceIndex.Text.Ranges
import SourceIndex.Text.Utf8
import SourceIndex.Text.Visible
import SourceIndex.Toml.Basic
import SourceIndex.Toml.Reader
import SourceIndex.Toml.Scalar
import SourceIndex.Url.Address
import SourceIndex.Url.Basic
import SourceIndex.Url.Domain
import SourceIndex.Url.Folding
import SourceIndex.Url.Host
import SourceIndex.Url.Percent
import SourceIndex.Url.Punycode
import SourceIndex.Url.Reader
