import Resumable.Host.Drain

/-!
# The host

A host loads machines, holds instances and drives the scheduler. Its operations change the
host and end with a result or a halt; an operation that halts leaves what it did before.

Operations that run code take a bound on the depth of calls and the length of loops.

## Main definitions

* `Host`, `Hosted`: a host and its operations.
* `Host.load`, `Host.spawn`, `Host.call`, `Host.resume`, `Host.advanceFrame`, …
-/

namespace Resumable

open Machine (Slot SlotId TaskStatus)

/-- Loaded machines and the state they run on. -/
structure Host where
  image : Image
  state : HostState

/-- Operations of a host. -/
abbrev Hosted := ExceptT Halt (StateM Host)

namespace Host

/-- A host without machines. -/
def new (names : NameTable) (config : HostConfig) : Host := ⟨.empty names, .new config⟩

/-- A run, on the machines of the host. -/
def run {α : Type} (action : Image → Run α) : Hosted α := fun host =>
  match host with
  | ⟨image, state⟩ =>
    let (result, state) := action image state
    (result, ⟨image, state⟩)

/-- A look at the host. -/
def look {α : Type} (view : Host → Except HostError α) : Hosted α := fun host =>
  match view host with
  | .ok a => (.ok a, host)
  | .error why => (.error (.error why), host)

/-- The name of a text. -/
def intern (text : String) : Hosted Name := fun host =>
  let (name, names) := host.image.names.intern text
  (.ok name, { host with image := { host.image with names } })

/-! ### Loading -/

/-- Load a machine. -/
def load (m : Machine) : Hosted Unit := fun host =>
  match host.image.load m with
  | .ok image => (.ok (), { host with image })
  | .error why => (.error (.error why), host)

/-- Load machines in order, up to one that cannot be loaded. -/
def loadAll : List Machine → Hosted Unit
  | [] => return ()
  | m :: rest => do
    load m
    loadAll rest

/-- Make an instance. -/
def spawn : Hosted InstanceId :=
  run fun _ => do
    let id := (← get).instances.size
    modify fun s => { s with instances := s.instances.push .empty }
    return id

/-- Make a function callable. It takes the place of one of the same name, the built-in log
included. -/
def register (name : String) (answer : HostFn) : Hosted Unit := do
  let function ← intern name
  run fun _ => modify fun s =>
    { s with functions := s.functions.insert function ⟨answer, []⟩ }

/-! ### Calling -/

/-- Call a procedure by name. The call of an entry returns the task of the new activation; one
in flight on the same instance is abandoned. -/
def call (fuel : Nat) (owner : InstanceId) (procedure : String) (args : List Value) :
    Hosted Value := do
  let index ← look fun host => host.image.resolve procedure
  run fun image => do
    let _ ← Run.theInstance owner
    let value ← runProcedure image fuel index owner args
    settle image fuel
    return value

/-- The handle under which the scheduler resumes a procedure on an instance. -/
def resumeHandle (owner : InstanceId) (procedure : String) : Hosted ResumeHandle :=
  look fun host => (host.image.program procedure).map fun program =>
    ⟨owner, procIndex program .dispatch⟩

/-- Run a dispatch now, as the scheduler would. -/
def resume (fuel : Nat) (handle : ResumeHandle) : Hosted Unit :=
  run fun image => do
    perform image fuel (.resume handle)
    settle image fuel

/-- Call a closure. -/
def callClosure (fuel : Nat) (closure : Value) : Hosted Value :=
  run fun image => do
    match closure with
    | .closure id =>
      let value ← runClosure image fuel id
      settle image fuel
      return value
    | other => Run.fail (.mismatch .closure other)

/-! ### Cancellation -/

/-- Make a cancellation token. -/
def newToken : Hosted Value :=
  run fun _ => do
    let id := (← get).tokens.size
    modify fun s => { s with tokens := s.tokens.push false }
    return .token id

/-- Request cancellation. It takes effect when an activation that holds the token runs
next. -/
def cancel (token : Value) : Hosted Unit :=
  run fun _ => do
    match token with
    | .token id =>
      if id < (← get).tokens.size then
        modify fun s => { s with tokens := s.tokens.setIfInBounds id true }
      else Run.fail (.mismatch .token token)
    | other => Run.fail (.mismatch .token other)

/-! ### Fields and slots -/

/-- Write a field of an instance. -/
def setField (owner : InstanceId) (field : String) (value : Value) : Hosted Unit := do
  let name ← intern field
  run fun _ =>
    Run.modifyInstance owner fun i => { i with fields := i.fields.insert name value }

/-- The content of a field of an instance. -/
def field (owner : InstanceId) (field : String) : Hosted (Option Value) :=
  run fun image => do
    let fields := (← Run.theInstance owner).fields
    return (image.names.find? field).bind fields.get?

/-- The position of a program and the program, by name. -/
def programOf (image : Image) (procedure : String) : Run (Nat × Program) := do
  let position ← Run.ofExcept (image.program procedure)
  match image.programs[position]? with
  | some program => return (position, program)
  | none => Run.fail (.unknownProcedure procedure)

/-- The first slot of a name. -/
def slotOf (image : Image) (program : Program) (slot : String) : Run Slot :=
  Run.require (.unknownSlot program.name slot)
    (program.machine.slots.find? fun s => image.names.lookup s.name == slot)

/-- The content of a slot on an instance. -/
def slotContent (owner : InstanceId) (position : Nat) (program : Program) (slot : SlotId) :
    Run Value := do
  return (← Run.storage owner position program.machine).slots[slot]?.getD .unit

/-- The content of a slot, by name. -/
def slotValue (owner : InstanceId) (procedure slot : String) : Hosted Value :=
  run fun image => do
    let (position, program) ← programOf image procedure
    slotContent owner position program (← slotOf image program slot).id

/-- Write a slot, by name. -/
def setSlotValue (owner : InstanceId) (procedure slot : String) (value : Value) :
    Hosted Unit :=
  run fun image => do
    let (position, program) ← programOf image procedure
    let id := (← slotOf image program slot).id
    Run.modifyStorage owner position program.machine fun s =>
      { s with slots := s.slots.set id value }

/-- The state of a procedure on an instance. -/
def stateIndex (owner : InstanceId) (procedure : String) : Hosted Int64 :=
  run fun image => do
    let (position, program) ← programOf image procedure
    Run.expectInt (← slotContent owner position program program.machine.stateSlot)

/-- The status of a procedure on an instance, where its slot holds one. -/
def status (owner : InstanceId) (procedure : String) : Hosted (Option TaskStatus) :=
  run fun image => do
    let (position, program) ← programOf image procedure
    let content ← slotContent owner position program program.machine.statusSlot
    return content.int?.bind TaskStatus.ofCode?

/-! ### Tasks and log -/

/-- How a task stands. -/
def taskState (host : Host) (task : Value) : Option TaskState :=
  task.task?.bind fun id => (host.state.tasks[id]?).map Task.state

/-- Everything the built-in log wrote. -/
def messages (host : Host) : List String := host.state.log.toList.map LogEntry.message

/-- Everything the built-in log wrote for an instance. -/
def messagesOf (host : Host) (owner : InstanceId) : List String :=
  (host.state.log.toList.filter fun entry => entry.owner == owner).map LogEntry.message

/-! ### Time -/

/-- Move to the next frame, and count what fires. -/
def advanceFrame (fuel : Nat) : Hosted Nat :=
  run fun image => Resumable.advanceFrame image fuel

/-- Let time pass, and count what fires. -/
def advanceSeconds (fuel : Nat) (seconds : Float) : Hosted Nat :=
  run fun image => Resumable.advanceSeconds image fuel seconds

/-- Fire every outstanding timer, and count what fires. -/
def fireTimers (fuel : Nat) : Hosted Nat := run fun image => Resumable.fireTimers image fuel

/-- Fire the request at a position of the queue. -/
def firePending (fuel : Nat) (index : Nat) : Hosted Unit :=
  run fun image => Resumable.firePending image fuel index

/-- Advance until no timer is outstanding, and count what fires. -/
def runUntilIdle (fuel : Nat) : Hosted Nat :=
  run fun image => Resumable.runUntilIdle image fuel

end Host

end Resumable
