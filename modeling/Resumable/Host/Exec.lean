import Resumable.Host.Operator
import Resumable.Host.Run

/-!
# Running lowered code

Expressions and statements run in a *site*: the image, the program whose code it is and the
instance it runs on. Nothing blocks; waiting is a request to the scheduler followed by a
return.

Code is run by recursion on its tree. Calls of procedures are a parameter of that recursion,
and loops are bounded; `runProcedure` closes the knot with a bound on the depth of calls.

## Main definitions

* `eval`: the value of an expression.
* `exec`, `execBlock`: the effect of statements.
* `runProcedure`, `runClosure`: running a procedure or a closure.
-/

namespace Resumable

open Machine (SlotId TaskStatus Timing)

/-- How a statement left its block. -/
inductive Flow where
  | next
  | breakLoop
  | continueLoop
  | ret (value : Value)
  /-- The activation is over. -/
  | finished

/-- The arguments and locals of a procedure or closure that runs. -/
structure Frame where
  params : List Value
  locals : Bindings LocalId Value

/-- Where code runs. -/
structure Site where
  image : Image
  /-- The position of the program whose code it is. -/
  index : Nat
  program : Program
  owner : InstanceId

/-- How procedures are called: by number, on an instance, with arguments. -/
abbrev Caller := ProcIndex → InstanceId → List Value → Run Value

namespace Site

/-- The machine whose code it is. -/
def machine (site : Site) : Machine := site.program.machine

/-- The machine has no such slot. -/
def unknownSlot (site : Site) (slot : SlotId) : HostError :=
  .unknownSlot site.program.name (HandleKind.slot.text slot)

/-- The slots of the machine on the instance. -/
def storage (site : Site) : Run Storage := Run.storage site.owner site.index site.machine

/-- The content of a slot. -/
def readSlot (site : Site) (slot : SlotId) : Run Value := do
  Run.require (site.unknownSlot slot) (← site.storage).slots[slot]?

/-- Write a slot. -/
def writeSlot (site : Site) (slot : SlotId) (value : Value) : Run Unit := do
  if slot < (← site.storage).slots.length then
    Run.modifyStorage site.owner site.index site.machine fun s =>
      { s with slots := s.slots.set slot value }
  else Run.fail (site.unknownSlot slot)

/-- The tasks in slots. -/
def taskSlots (site : Site) : List SlotId → Run (List TaskId)
  | [] => return []
  | slot :: rest => do
    let id ← Run.expectTask (← site.readSlot slot)
    return id :: (← site.taskSlots rest)

/-- The dispatch that a schedule or invoke names, which has to be the machine's own. -/
def ownDispatch (site : Site) (target : Name) : Run ProcIndex :=
  if target = site.machine.dispatch.name then return procIndex site.index .dispatch
  else
    Run.fail (.foreignDispatch (site.image.names.lookup site.machine.dispatch.name)
      (site.image.names.lookup target))

/-- What a local holds when it is introduced without a value. -/
def defaultLocal (site : Site) (id : LocalId) : Value :=
  match site.machine.locals.find? fun decl => decl.id == id with
  | some decl => .defaultFor decl.ty
  | none => .unit

end Site

/-! ### Calls -/

/-- The task of a primitive used as a value. -/
def callPrimitive (which : Primitive) (args : List Value) : Run Value := do
  let first := args.head?.getD .unit
  match which with
  | .delay =>
    let seconds ← Run.expectNumber first
    Run.scheduledTask .timer ((← get).scheduler.afterSeconds seconds)
  | .delayFrames =>
    let frames ← Run.expectInt first
    Run.scheduledTask .timer ((← get).scheduler.afterFrames frames)
  | .yield => Run.scheduledTask .timer ((← get).scheduler.afterFrames 1)
  | .whenAll =>
    let tasks ← args.mapM Run.expectTask
    Run.scheduledTask (.join tasks .all) (.completion tasks .all)
  | .whenAny =>
    let tasks ← args.mapM Run.expectTask
    Run.scheduledTask (.join tasks .any) (.completion tasks .any)

/-- The call of a function of the host: a registered one, or the built-in log. -/
def callHost (names : NameTable) (owner : InstanceId) (function : Name) (args : List Value) :
    Run Value := do
  match (← get).functions.get? function with
  | some registered =>
    let call : HostCall := ⟨function, owner, args⟩
    modify fun s =>
      { s with
        calls := s.calls.push call
        functions := s.functions.insert function
          { registered with earlier := call :: registered.earlier } }
    Run.ofExcept (registered.answer registered.earlier call)
  | none =>
    if names.lookup function = "log" then
      modify fun s =>
        { s with log := s.log.push ⟨owner, " ".intercalate (Value.texts args)⟩ }
      return .unit
    else Run.fail (.unknownFunction (names.lookup function))

/-- A call of whatever the target is. -/
def callTarget (site : Site) (call : Caller) (target : CallTarget) (args : List Value) :
    Run Value :=
  match target with
  | .primitive which => callPrimitive which args
  | .procedure name =>
    match site.image.procedure? name with
    | some index => call index site.owner args
    | none => Run.fail (.unknownProcedure (site.image.names.lookup name))
  | .host name => callHost site.image.names site.owner name args

/-! ### Expressions -/

/-- Make a closure over the frame. -/
def makeClosure (site : Site) (frame : Frame) (body : List Machine.Stmt) : Run Value := do
  let id := (← get).closures.size
  let closure : Closure := ⟨site.owner, site.index, body, frame.params, frame.locals⟩
  modify fun s => { s with closures := s.closures.push closure }
  return .closure id

/-- Has cancellation been requested on the handle in a slot? An empty slot asks for
nothing. -/
def cancelRequested (site : Site) (slot : SlotId) : Run Value := do
  match ← site.readSlot slot with
  | .token id => return .bool ((← get).tokens[id]?.getD false)
  | .unit => return .bool false
  | other => Run.fail (.mismatch .token other)

mutual

/-- The value of an expression. -/
def eval (site : Site) (call : Caller) (frame : Frame) : Machine.Expr → Run Value
  | .int _ v => return .int v
  | .float _ bits => return .float (Float.ofBits bits)
  | .bool _ v => return .bool v
  | .str _ name => return .str (site.image.names.lookup name)
  | .unit _ => return .unit
  | .localVar _ id => Run.require .uninitializedLocal (frame.locals.get? id)
  | .param _ index => Run.require (.missingParam index) frame.params[index]?
  | .field _ name => do
    Run.require (.unknownField (site.image.names.lookup name))
      ((← Run.theInstance site.owner).fields.get? name)
  | .slot _ id => site.readSlot id
  | .binary _ .and left right => do
    if ← Run.expectBool (← eval site call frame left) then
      return .bool (← Run.expectBool (← eval site call frame right))
    else return .bool false
  | .binary _ .or left right => do
    if ← Run.expectBool (← eval site call frame left) then return .bool true
    else return .bool (← Run.expectBool (← eval site call frame right))
  | .binary _ op left right => do
    let a ← eval site call frame left
    let b ← eval site call frame right
    Run.ofExcept (binaryOp op a b)
  | .unary _ op operand => do
    Run.ofExcept (unaryOp op (← eval site call frame operand))
  | .call _ target args => do
    callTarget site call target (← evalArgs site call frame args)
  | .lambda _ body => makeClosure site frame body
  | .tasksDone _ slots mode => do
    let ids ← site.taskSlots slots
    return .bool ((← get).tasks.done ids mode)
  | .taskValue _ slots mode => do
    let ids ← site.taskSlots slots
    Run.require .taskNotDone ((← get).tasks.joined? ids mode)
  | .cancelRequested _ slot => cancelRequested site slot
  | .error _ => Run.fail .errorNode
  | .absent => throw .absentNode

/-- The values of arguments, from left to right. -/
def evalArgs (site : Site) (call : Caller) (frame : Frame) :
    List Machine.Expr → Run (List Value)
  | [] => return []
  | e :: rest => do
    let v ← eval site call frame e
    return v :: (← evalArgs site call frame rest)

end

/-- The value of an expression that may be absent. -/
def eval? (site : Site) (call : Caller) (frame : Frame) (e : Machine.Expr) :
    Run (Option Value) :=
  if e.isAbsent then return none else some <$> eval site call frame e

/-! ### Statements -/

/-- When a scheduled call back is due. -/
def dueOf (site : Site) (call : Caller) (frame : Frame) : Timing → Run Due
  | .seconds e => do
    let seconds ← Run.expectNumber (← eval site call frame e)
    return (← get).scheduler.afterSeconds seconds
  | .frames e => do
    let frames ← Run.expectInt (← eval site call frame e)
    return (← get).scheduler.afterFrames frames
  | .nextFrame => return (← get).scheduler.afterFrames 1
  | .completion slots mode => return .completion (← site.taskSlots slots) mode

/-- Write a place. Only locals and arguments belong to the frame. -/
def writePlace (site : Site) (frame : Frame) (value : Value) : Machine.Place → Run Frame
  | .localVar id => return { frame with locals := frame.locals.insert id value }
  | .param index =>
    if index < frame.params.length then
      return { frame with params := frame.params.set index value }
    else Run.fail (.missingParam index)
  | .field name => do
    Run.modifyInstance site.owner fun i => { i with fields := i.fields.insert name value }
    return frame
  | .slot id => do
    site.writeSlot id value
    return frame

/-- The value an activation completes with: the one given, or what the result slot holds. -/
def resultOf (site : Site) (value : Option Value) : Run Value :=
  match site.machine.resultSlot, value with
  | some slot, some v => do
    site.writeSlot slot v
    return v
  | some slot, none => site.readSlot slot
  | none, v => return v.getD .unit

/-- End the activation. The task that observes it gets its outcome. -/
def finish (site : Site) (status : TaskStatus) (value : Option Value) : Run Unit := do
  let result ← resultOf site value
  site.writeSlot site.machine.statusSlot (.int status.code)
  match (← site.storage).task, status with
  | some id, .succeeded =>
    modify fun s => { s with tasks := s.tasks.complete id (.succeeded result) }
  | some id, .cancelled => modify fun s => { s with tasks := s.tasks.complete id .cancelled }
  | _, _ => return ()

/-- Repeat a body while a condition holds, a bounded number of times. -/
def repeatWhile (cond : Frame → Run Bool) (body : Frame → Run (Flow × Frame)) :
    Nat → Frame → Run (Flow × Frame)
  | 0, _ => throw .outOfFuel
  | fuel + 1, frame => do
    if ← cond frame then
      let (flow, frame) ← body frame
      match flow with
      | .next | .continueLoop => repeatWhile cond body fuel frame
      | .breakLoop => return (.next, frame)
      | .ret _ | .finished => return (flow, frame)
    else return (.next, frame)

mutual

/-- The effect of a statement. -/
def exec (site : Site) (call : Caller) (fuel : Nat) :
    Machine.Stmt → Frame → Run (Flow × Frame)
  | .expr _ e, frame => do
    let _ ← eval site call frame e
    return (.next, frame)
  | .bind _ id init, frame => do
    let value := (← eval? site call frame init).getD (site.defaultLocal id)
    return (.next, { frame with locals := frame.locals.insert id value })
  | .assign _ target e, frame => do
    let value ← eval site call frame e
    return (.next, ← writePlace site frame value target)
  | .branch _ cond onTrue onFalse, frame => do
    if ← Run.expectBool (← eval site call frame cond) then
      execBlock site call fuel onTrue frame
    else execBlock site call fuel onFalse frame
  | .loop _ cond body, frame =>
    repeatWhile (fun frame => do Run.expectBool (← eval site call frame cond))
      (execBlock site call fuel body) fuel frame
  | .breakLoop _, frame => return (.breakLoop, frame)
  | .continueLoop _, frame => return (.continueLoop, frame)
  | .ret _ e, frame => do
    return (.ret ((← eval? site call frame e).getD .unit), frame)
  | .setState _ state, frame => do
    site.writeSlot site.machine.stateSlot (.int (.ofNat state))
    return (.next, frame)
  | .schedule _ target timing, frame => do
    let dispatch ← site.ownDispatch target
    let due ← dueOf site call frame timing
    Run.submit due (.resume ⟨site.owner, dispatch⟩)
    return (.next, frame)
  | .invoke _ target, frame => do
    let dispatch ← site.ownDispatch target
    let _ ← call dispatch site.owner []
    return (.next, frame)
  | .finish _ status e, frame => do
    finish site status (← eval? site call frame e)
    return (.finished, frame)
  | .returnTask _, frame => do
    return (.ret (((← site.storage).task.map Value.task).getD .unit), frame)
  | .switch _ slot arms, frame => do
    let state ← Run.expectInt (← site.readSlot slot)
    execArm site call fuel arms state frame
  | .unresolved _, _ => throw .absentNode

/-- The effect of statements in order, up to one that leaves the block. -/
def execBlock (site : Site) (call : Caller) (fuel : Nat) :
    List Machine.Stmt → Frame → Run (Flow × Frame)
  | [], frame => return (.next, frame)
  | s :: rest, frame => do
    let (flow, frame) ← exec site call fuel s frame
    match flow with
    | .next => execBlock site call fuel rest frame
    | _ => return (flow, frame)

/-- The effect of the first arm for a state; without one nothing happens. -/
def execArm (site : Site) (call : Caller) (fuel : Nat) :
    List Machine.Arm → Int64 → Frame → Run (Flow × Frame)
  | [], _, frame => return (.next, frame)
  | .mk value body :: rest, state, frame =>
    if (value : Int) = state.toInt then execBlock site call fuel body frame
    else execArm site call fuel rest state frame

end

/-! ### Procedures and closures -/

/-- What a body that was left returns. -/
def returned : Flow → Run Value
  | .ret value => return value
  | .next | .finished => return .unit
  | .breakLoop | .continueLoop => Run.fail .strayLoopControl

/-- The body of a procedure and how many arguments it takes. -/
def Program.code (p : Program) : ProcRole → List Machine.Stmt × Nat
  | .entry => (p.machine.entry.body, p.machine.params.length)
  | .dispatch => (p.machine.dispatch.body, 0)

/-- Start an activation: make the task that observes it. -/
def startActivation (site : Site) : Run Unit := do
  let id ← Run.newTask .activation
  Run.modifyStorage site.owner site.index site.machine fun s => { s with task := some id }

/-- Run a procedure, with a bound on the depth of calls and the length of loops. -/
def runProcedure (image : Image) : Nat → Caller
  | 0, _, _, _ => throw .outOfFuel
  | fuel + 1, index, owner, args => do
    let (position, program, role) ←
      Run.require (.unknownProcedure s!"ProcIndex({index})") (image.proc? index)
    let (body, arity) := program.code role
    if args.length = arity then
      let site : Site := ⟨image, position, program, owner⟩
      if role = .entry then startActivation site
      let (flow, _) ← execBlock site (runProcedure image fuel) fuel body ⟨args, .empty⟩
      returned flow
    else Run.fail (.arityMismatch program.name arity args.length)

/-- Run a closure. -/
def runClosure (image : Image) (fuel : Nat) (id : ClosureId) : Run Value := do
  match (← get).closures[id]? with
  | none => Run.fail (.typeMismatch .closure .unit)
  | some closure =>
    match image.programs[closure.program]? with
    | none => throw .absentNode
    | some program =>
      let site : Site := ⟨image, closure.program, program, closure.owner⟩
      let (flow, _) ← execBlock site (runProcedure image fuel) fuel closure.body
        ⟨closure.params, closure.locals⟩
      returned flow

end Resumable
