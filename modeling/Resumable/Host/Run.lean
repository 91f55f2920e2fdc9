import Resumable.Host.Image
import Resumable.Host.State

/-!
# Runs

A run changes the state of the host and ends with a value or a halt. What was done before a
halt stays done.

## Main definitions

* `Run`: runs.
* `Run.storage`, `Run.readSlot`, `Run.writeSlot`: the persistent slots of a machine on an
  instance.
-/

namespace Resumable

/-- Why a run ends without a value. -/
inductive Halt where
  | error (why : HostError)
  /-- The bound on calls and loops was reached. -/
  | outOfFuel
  /-- An expression or statement that is not there was to be run. -/
  | absentNode
  deriving DecidableEq, Repr

/-- Runs that change the state of the host. -/
abbrev Run := ExceptT Halt (StateM HostState)

namespace Run

/-- End with an error. -/
def fail {α : Type} (why : HostError) : Run α := throw (.error why)

/-- A result that may be an error. -/
def ofExcept {α : Type} : Except HostError α → Run α
  | .ok a => pure a
  | .error why => fail why

/-- A value, or an error where there is none. -/
def require {α : Type} (why : HostError) : Option α → Run α
  | some a => pure a
  | none => fail why

/-! ### Instances and slots -/

/-- An instance that exists. -/
def theInstance (owner : InstanceId) : Run Instance := do
  require (.unknownInstance owner) (← get).instances[owner]?

/-- Change an instance that exists. -/
def modifyInstance (owner : InstanceId) (f : Instance → Instance) : Run Unit := do
  let _ ← theInstance owner
  modify fun s => { s with instances := s.instances.modify owner f }

/-- The slots of a program on an instance. -/
def storage (owner : InstanceId) (program : Nat) (m : Machine) : Run Storage := do
  return ((← theInstance owner).storage.get? program).getD (.fresh m)

/-- Change the slots of a program on an instance. -/
def modifyStorage (owner : InstanceId) (program : Nat) (m : Machine) (f : Storage → Storage) :
    Run Unit := do
  let stored ← storage owner program m
  modifyInstance owner fun i => { i with storage := i.storage.insert program (f stored) }

/-! ### Tasks -/

/-- Make a task that is pending. Its number is its place in the table, of which the program
gets the `handle`: the two agree as long as the number has 32 bits. -/
def newTask (kind : TaskKind) : Run TaskId := do
  let id := (← get).tasks.size
  modify fun s => { s with tasks := s.tasks.push ⟨.pending, kind⟩ }
  return id

/-- Submit a request. -/
def submit (due : Due) (action : Action) : Run Unit :=
  modify fun s => { s with scheduler := s.scheduler.submit due action }

/-- Make a task and the request that completes it. -/
def scheduledTask (kind : TaskKind) (due : Due) : Run Value := do
  let id ← newTask kind
  submit due (.complete id)
  return .task id

/-! ### Kinds of values -/

/-- The boolean that a value has to be. -/
def expectBool (v : Value) : Run Bool := require (.mismatch .bool v) v.bool?

/-- The integer that a value has to be. -/
def expectInt (v : Value) : Run Int64 := require (.mismatch .int v) v.int?

/-- The number that a value has to stand for. -/
def expectNumber (v : Value) : Run Float := require (.mismatch .number v) v.number?

/-- The task that a value has to be. -/
def expectTask (v : Value) : Run TaskId := require (.mismatch .task v) v.task?

end Run

end Resumable
