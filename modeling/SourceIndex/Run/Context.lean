/-!
# The context of a run

What the stages of one run share: whether the run was cancelled, how many workers may still
start, and the failures that do not end the run. Runs may share the token of their caller:
cancelling that cancels them all, cancelling a run cancels no other.
-/

namespace SourceIndex

/-- The stage of a run in which a failure was met. -/
inductive Stage where
  | chunking
  | embedding
deriving Repr, DecidableEq

namespace Stage

/-- The name of a stage. -/
def name : Stage → String
  | chunking => "chunking"
  | embedding => "embedding"

/-- The stage with the given name. -/
def ofName? (text : String) : Option Stage := [chunking, embedding].find? (·.name == text)

end Stage

/-- A problem that leaves the result of a run partial. -/
structure SoftFailure where
  stage : Stage
  files : List String
  batch : Option Nat
  message : String
deriving Repr, DecidableEq

/-- What the stages of a run share. -/
structure RunContext where
  /-- The run itself was cancelled. -/
  ownCancel : Bool
  /-- Workers that may still start. -/
  permits : Nat
  /-- The failures in the order in which they were recorded. -/
  failures : List SoftFailure
deriving Repr, DecidableEq

namespace RunContext

/-- The context of a new run; at least one worker may start. -/
def start (workers : Nat) : RunContext := ⟨false, max workers 1, []⟩

/-- A run is cancelled by its caller or by itself. -/
def isCancelled (context : RunContext) (callerCancelled : Bool) : Bool :=
  callerCancelled || context.ownCancel

/-- Cancels the run. -/
def cancel (context : RunContext) : RunContext := { context with ownCancel := true }

/-- Adds a failure. -/
def record (context : RunContext) (failure : SoftFailure) : RunContext :=
  { context with failures := context.failures ++ [failure] }

/-- The recorded failures, which the context then no longer holds. -/
def takeFailures (context : RunContext) : List SoftFailure × RunContext :=
  (context.failures, { context with failures := [] })

/-- Lets one more worker start, if one may. -/
def acquire? (context : RunContext) : Option RunContext :=
  if context.permits = 0 then none else some { context with permits := context.permits - 1 }

/-- A worker has ended. -/
def release (context : RunContext) : RunContext := { context with permits := context.permits + 1 }

end RunContext

end SourceIndex
