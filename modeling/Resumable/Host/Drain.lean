import Resumable.Host.Exec

/-!
# Firing requests

A step fires requests one by one: requests for tasks that are done come first, then timers
that are due, each oldest first. A step has a budget. A request is taken from the queue before
the budget is looked at, so the request on which the budget ends is gone.

## Main definitions

* `drain`: fire what can be selected, within a budget.
* `settle`, `fireDue`, `fireTimers`, `firePending`, `runUntilIdle`: the kinds of step.
-/

namespace Resumable

/-- Perform the action of a request. -/
def perform (image : Image) (fuel : Nat) : Action → Run Unit
  | .resume handle => do
    let _ ← runProcedure image fuel handle.procedure handle.owner []
  | .complete task => modify fun s => { s with tasks := s.tasks.completeScheduled task }

/-- More requests fire than are allowed. -/
def runaway {α : Type} : Run α := do
  Run.fail (.runawaySchedule (← get).config.maxDispatch)

namespace HostState

/-- The oldest request for tasks that are done. -/
def takeReady? (s : HostState) : Option (Request × HostState) :=
  (s.scheduler.takeReady? s.tasks.done).map fun (r, scheduler) => (r, { s with scheduler })

/-- The oldest request for tasks that are done, or else the oldest timer that is due. -/
def takeDue? (s : HostState) : Option (Request × HostState) :=
  match s.takeReady? with
  | some taken => some taken
  | none => s.scheduler.takeDueTimer?.map fun (r, scheduler) => (r, { s with scheduler })

end HostState

/-- Fire what can be selected, within a budget, and return what is left of it. -/
def drain (image : Image) (fuel : Nat) (select : HostState → Option (Request × HostState)) :
    Nat → Run Nat
  | 0 => do
    match select (← get) with
    | none => return 0
    | some (_, s) =>
      set s
      runaway
  | budget + 1 => do
    match select (← get) with
    | none => return budget + 1
    | some (r, s) =>
      set s
      perform image fuel r.action
      drain image fuel select budget

/-- Fire a request that was taken, and then what it made ready. -/
def fire (image : Image) (fuel : Nat) (r : Request) : Nat → Run Nat
  | 0 => runaway
  | budget + 1 => do
    perform image fuel r.action
    drain image fuel HostState.takeReady? budget

/-- Fire the requests for tasks that are done. -/
def settle (image : Image) (fuel : Nat) : Run Unit := do
  let _ ← drain image fuel HostState.takeReady? (← get).config.maxDispatch

/-- Fire everything that is due, and count it. -/
def fireDue (image : Image) (fuel : Nat) : Run Nat := do
  let limit := (← get).config.maxDispatch
  return limit - (← drain image fuel HostState.takeDue? limit)

/-- Move to the next frame and fire what is due. -/
def advanceFrame (image : Image) (fuel : Nat) : Run Nat := do
  modify fun s => { s with scheduler := s.scheduler.advanceFrame }
  fireDue image fuel

/-- Let time pass and fire what is due. -/
def advanceSeconds (image : Image) (fuel : Nat) (seconds : Float) : Run Nat := do
  modify fun s => { s with scheduler := s.scheduler.advanceSeconds seconds }
  fireDue image fuel

/-- Take the request of a number, with the clock moved up to it. -/
def takeSeq? (seq : Nat) : Run (Option Request) := do
  match (← get).scheduler.takeSeq? seq with
  | none => return none
  | some (r, scheduler) =>
    modify fun s => { s with scheduler }
    return some r

/-- Fire the requests of the given numbers that are still outstanding. -/
def fireSeqs (image : Image) (fuel : Nat) : List Nat → Nat → Run Nat
  | [], budget => return budget
  | seq :: rest, budget => do
    match ← takeSeq? seq with
    | none => fireSeqs image fuel rest budget
    | some r =>
      let budget ← fire image fuel r budget
      fireSeqs image fuel rest budget

/-- Fire every outstanding timer, due or not, and count what fires. Timers submitted on the
way stay. -/
def fireTimers (image : Image) (fuel : Nat) : Run Nat := do
  let limit := (← get).config.maxDispatch
  let seqs := (← get).scheduler.timerSeqs
  return limit - (← fireSeqs image fuel seqs limit)

/-- Fire the request at a position of the queue, due or not. -/
def firePending (image : Image) (fuel : Nat) (index : Nat) : Run Unit := do
  let r ← Run.require (.noPendingRequest index) (← get).scheduler.pending[index]?
  let _ ← fireSeqs image fuel [r.seq] (← get).config.maxDispatch

/-- How many frames may pass before a host counts as never idle. -/
def idleFrameLimit : Nat := 100000

/-- Advance frames until no timer is outstanding, and count what fires. -/
def advanceUntilIdle (image : Image) (fuel : Nat) : Nat → Nat → Run Nat
  | 0, fired => do
    if (← get).scheduler.hasTimers then Run.fail (.neverIdle idleFrameLimit)
    else return fired
  | frames + 1, fired => do
    if (← get).scheduler.hasTimers then
      let more ← advanceFrame image fuel
      advanceUntilIdle image fuel frames (fired + more)
    else return fired

/-- Fire what is due, then advance until no timer is outstanding. -/
def runUntilIdle (image : Image) (fuel : Nat) : Run Nat := do
  advanceUntilIdle image fuel idleFrameLimit (← fireDue image fuel)

end Resumable
