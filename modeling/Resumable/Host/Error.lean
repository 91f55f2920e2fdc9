import Resumable.Host.Value

/-!
# Errors of the host

What can go wrong while machines are loaded and run.
-/

namespace Resumable

/-- What a value was expected to be. -/
inductive Expected where
  | bool
  | int
  | number
  | task
  | token
  | closure
  deriving DecidableEq, Repr

/-- The word for an expectation. -/
def Expected.word : Expected → String
  | .bool => "bool"
  | .int => "int"
  | .number => "number"
  | .task => "task"
  | .token => "cancellation token"
  | .closure => "closure"

/-- An error raised while a machine is loaded or run. -/
inductive HostError where
  /-- The machine breaks rules. -/
  | invalidMachine (procedure : String) (violations : List String)
  /-- A procedure of that name is loaded already. -/
  | duplicateProcedure (name : String)
  | unknownProcedure (name : String)
  | unknownFunction (name : String)
  | unknownInstance (owner : InstanceId)
  | unknownField (name : String)
  | unknownSlot (procedure slot : String)
  /-- A local is read before it was introduced. -/
  | uninitializedLocal
  | missingParam (index : Nat)
  /-- The value of a task is read before it is done. -/
  | taskNotDone
  | arityMismatch (procedure : String) (expected got : Nat)
  | typeMismatch (expected : Expected) (found : ValueKind)
  | divisionByZero
  /-- A break or continue leaves a procedure or closure. -/
  | strayLoopControl
  /-- Code asks for a dispatch that is not its own. -/
  | foreignDispatch (expected found : String)
  | errorNode
  /-- More requests fire in one step than are allowed. -/
  | runawaySchedule (limit : Nat)
  /-- Timers stay pending however many frames pass. -/
  | neverIdle (frames : Nat)
  | noPendingRequest (index : Nat)
  /-- A registered function failed. -/
  | function (name message : String)
  deriving DecidableEq, Repr

namespace HostError

/-- A value is not what was expected. -/
def mismatch (expected : Expected) (found : Value) : HostError :=
  .typeMismatch expected found.kind

/-- The word for a kind of error. -/
def kind : HostError → String
  | .invalidMachine .. => "InvalidArtifact"
  | .duplicateProcedure _ => "DuplicateProcedure"
  | .unknownProcedure _ => "UnknownProcedure"
  | .unknownFunction _ => "UnknownFunction"
  | .unknownInstance _ => "UnknownInstance"
  | .unknownField _ => "UnknownField"
  | .unknownSlot .. => "UnknownSlot"
  | .uninitializedLocal => "UninitializedLocal"
  | .missingParam _ => "MissingParam"
  | .taskNotDone => "TaskNotDone"
  | .arityMismatch .. => "ArityMismatch"
  | .typeMismatch .. => "TypeMismatch"
  | .divisionByZero => "DivisionByZero"
  | .strayLoopControl => "StrayLoopControl"
  | .foreignDispatch .. => "ForeignDispatch"
  | .errorNode => "ErrorNode"
  | .runawaySchedule _ => "RunawaySchedule"
  | .neverIdle _ => "NeverIdle"
  | .noPendingRequest _ => "NoPendingRequest"
  | .function .. => "Function"

/-- What is reported about an error. -/
def message : HostError → String
  | .invalidMachine procedure violations =>
    let shown := "; ".intercalate violations
    s!"artifact for `{procedure}` is malformed: {shown}"
  | .duplicateProcedure name => s!"procedure `{name}` is already loaded"
  | .unknownProcedure name => s!"no procedure named `{name}`"
  | .unknownFunction name => s!"no host function named `{name}`"
  | .unknownInstance owner => s!"no instance InstanceId({owner})"
  | .unknownField name => s!"instance has no field `{name}`"
  | .unknownSlot procedure slot => s!"`{procedure}` has no slot named `{slot}`"
  | .uninitializedLocal => "local read before it was assigned"
  | .missingParam index => s!"no argument at position {index}"
  | .taskNotDone => "task value read before the task completed"
  | .arityMismatch procedure expected got =>
    s!"`{procedure}` expects {expected} argument(s), got {got}"
  | .typeMismatch expected found => s!"expected {expected.word}, found {found.word}"
  | .divisionByZero => "division by zero"
  | .strayLoopControl => "`break` or `continue` outside a loop"
  | .foreignDispatch expected found =>
    s!"schedule names `{found}`, expected its own dispatch `{expected}`"
  | .errorNode => "lowered code contains an error node"
  | .runawaySchedule limit => s!"more than {limit} callbacks in one scheduler step"
  | .neverIdle frames => s!"timers still pending after {frames} frames"
  | .noPendingRequest index => s!"no pending request at position {index}"
  | .function name message => s!"host function `{name}` failed: {message}"

end HostError

end Resumable
