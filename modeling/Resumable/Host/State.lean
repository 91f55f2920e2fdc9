import Resumable.Bindings
import Resumable.Host.Error
import Resumable.Host.Scheduler
import Resumable.Machine.Syntax

/-!
# The state of a host

What running machines changes: instances with their fields and slots, tasks, tokens, closures,
the registered functions, the log and the scheduler.

The slots of a machine on an instance come into being with their first write; until then they
hold the defaults of their types.

## Main definitions

* `HostState`: the state.
* `TaskTable`: tasks by number; `TaskTable.done`, `TaskTable.firstDone?`, `TaskTable.joined?`.
-/

namespace Resumable

/-- What can be chosen about a host. -/
structure HostConfig where
  /-- How much time passes with a frame. -/
  frameSeconds : Float
  /-- How many requests may fire in one step. -/
  maxDispatch : Nat

/-- Sixty frames in a second, ten thousand requests in a step. -/
def HostConfig.standard : HostConfig := ⟨1.0 / 60.0, 10000⟩

/-! ### Tasks -/

/-- How a task stands. -/
inductive TaskState where
  | pending
  | succeeded (value : Value)
  | cancelled

/-- Has the task an outcome? -/
def TaskState.isDone : TaskState → Bool
  | .pending => false
  | .succeeded _ | .cancelled => true

/-- What a task observes. -/
inductive TaskKind where
  /-- One activation of a machine. -/
  | activation
  /-- A delay used as a value. -/
  | timer
  /-- A join used as a value. -/
  | join (tasks : List TaskId) (mode : JoinMode)
  deriving DecidableEq, Repr

/-- A deferred result. -/
structure Task where
  state : TaskState
  kind : TaskKind

/-- Tasks by number. -/
abbrev TaskTable := Array Task

namespace TaskTable

/-- Does the task exist and have an outcome? -/
def isDone (tasks : TaskTable) (id : TaskId) : Bool :=
  match tasks[id]? with
  | some t => t.state.isDone
  | none => false

/-- Are the tasks done, all of them or one? -/
def done (tasks : TaskTable) (ids : List TaskId) : JoinMode → Bool
  | .all => ids.all (isDone tasks)
  | .any => ids.any (isDone tasks)

/-- The position of the first task that is done. -/
def firstDone? (tasks : TaskTable) (ids : List TaskId) : Option Nat :=
  ids.findIdx? (isDone tasks)

/-- Record the outcome of a task. The first outcome stays. -/
def complete (tasks : TaskTable) (id : TaskId) (state : TaskState) : TaskTable :=
  tasks.modify id fun t => if t.state.isDone then t else { t with state }

/-- The value of a task whose request fires; an activation completes by itself. -/
def scheduledValue? (tasks : TaskTable) : TaskKind → Option Value
  | .activation => none
  | .timer => some .unit
  | .join _ .all => some .unit
  | .join ids .any =>
    match firstDone? tasks ids with
    | some position => some (.int (.ofNat position))
    | none => some .unit

/-- Complete a timer or a join whose request fires. -/
def completeScheduled (tasks : TaskTable) (id : TaskId) : TaskTable :=
  match tasks[id]? with
  | none => tasks
  | some t =>
    match scheduledValue? tasks t.kind with
    | some value => complete tasks id (.succeeded value)
    | none => tasks

/-- What a wait for tasks delivers, once they are done. -/
def joined? (tasks : TaskTable) (ids : List TaskId) : JoinMode → Option Value
  | .any => (firstDone? tasks ids).map fun position => .int (.ofNat position)
  | .all =>
    match ids with
    | [id] =>
      match (tasks[id]?).map Task.state with
      | some (.succeeded value) => some value
      | some .cancelled => some .unit
      | some .pending | none => none
    | _ => if done tasks ids .all then some .unit else none

end TaskTable

/-! ### Instances -/

/-- The slots of one machine on one instance. -/
structure Storage where
  slots : List Value
  /-- The task that observes the latest activation. -/
  task : Option TaskId

/-- Slots that hold the defaults of their types. -/
def Storage.fresh (m : Machine) : Storage :=
  ⟨m.slots.map fun s => Value.defaultFor s.ty, none⟩

/-- An object that owns fields, and slots for each program. -/
structure Instance where
  fields : Bindings Name Value
  storage : Bindings Nat Storage

/-- An instance on which nothing was done. -/
def Instance.empty : Instance := ⟨.empty, .empty⟩

/-- A closure: code with the frame in which it was made. -/
structure Closure where
  owner : InstanceId
  program : Nat
  body : List Machine.Stmt
  params : List Value
  locals : Bindings LocalId Value

/-! ### Functions and log -/

/-- A call of a registered function. -/
structure HostCall where
  function : Name
  owner : InstanceId
  args : List Value

/-- A function that machines can call. It answers a call knowing the earlier calls, latest
first. -/
abbrev HostFn := List HostCall → HostCall → Except HostError Value

/-- A registered function with the calls it has answered, latest first. -/
structure Registration where
  answer : HostFn
  earlier : List HostCall

/-- A line written by the built-in log. -/
structure LogEntry where
  owner : InstanceId
  message : String
  deriving DecidableEq, Repr

/-! ### State -/

/-- The state of a host. -/
structure HostState where
  config : HostConfig
  scheduler : Scheduler
  instances : Array Instance
  tasks : TaskTable
  /-- For each token, whether cancellation was requested. -/
  tokens : Array Bool
  closures : Array Closure
  functions : Bindings Name Registration
  log : Array LogEntry
  /-- The calls of registered functions. -/
  calls : Array HostCall

namespace HostState

/-- A state in which nothing was done. -/
def new (config : HostConfig) : HostState where
  config
  scheduler := .new config.frameSeconds
  instances := #[]
  tasks := #[]
  tokens := #[]
  closures := #[]
  functions := .empty
  log := #[]
  calls := #[]

end HostState

end Resumable
