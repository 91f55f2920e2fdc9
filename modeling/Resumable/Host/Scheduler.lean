import Resumable.Host.Value
import Resumable.Operation

/-!
# The scheduler

The scheduler has a clock, in seconds and in frames, and the queue of outstanding requests. It
runs nothing itself: the host takes requests that are due and performs their actions.

Requests stand in the order of their submission, and due requests are taken in that order.
There is at most one outstanding resume of a dispatch on an instance: a new one replaces the
old.

## Main definitions

* `Scheduler`, `Request`, `Due`, `Action`.
* `Scheduler.submit`: add a request.
* `Scheduler.takeDueTimer?`, `Scheduler.takeReady?`, `Scheduler.takeSeq?`: take a request out.
-/

namespace Resumable

/-- The number of a procedure that is loaded. -/
abbrev ProcIndex := Nat

/-- A dispatch to be called back on an instance. -/
structure ResumeHandle where
  owner : InstanceId
  procedure : ProcIndex
  deriving DecidableEq, Repr

/-- When a request becomes due. -/
inductive Due where
  /-- At a time of the clock. -/
  | seconds (time : Float)
  | frame (number : Nat)
  /-- When the tasks are done. -/
  | completion (tasks : List TaskId) (mode : JoinMode)

/-- Does time make it due? -/
def Due.isTimer : Due → Bool
  | .seconds _ | .frame _ => true
  | .completion .. => false

/-- What happens when a request fires. -/
inductive Action where
  | resume (handle : ResumeHandle)
  /-- Complete the task of a timer or join. -/
  | complete (task : TaskId)
  deriving DecidableEq, Repr

/-- An outstanding request. -/
structure Request where
  /-- Its number in the order of submission. -/
  seq : Nat
  due : Due
  action : Action

/-- The clock and the queue. -/
structure Scheduler where
  now : Float
  frame : Nat
  /-- How much time passes with a frame. -/
  frameSeconds : Float
  nextSeq : Nat
  pending : List Request

/-- The larger of two times; one that is no number does not count. -/
def laterTime (a b : Float) : Float :=
  if a.isNaN then b else if b.isNaN then a else if a < b then b else a

/-- The first element with a property, and the others. -/
def takeFirst {α : Type} (p : α → Bool) : List α → Option (α × List α)
  | [] => none
  | a :: rest =>
    if p a then some (a, rest) else (takeFirst p rest).map fun (b, others) => (b, a :: others)

namespace Scheduler

/-- A scheduler at time zero without requests. -/
def new (frameSeconds : Float) : Scheduler := ⟨0, 0, frameSeconds, 0, []⟩

/-- Is a request outstanding that time makes due? -/
def hasTimers (s : Scheduler) : Bool := s.pending.any fun r => r.due.isTimer

/-! ### Submission -/

/-- Add a request. A resume replaces one of the same handle. -/
def submit (s : Scheduler) (due : Due) (action : Action) : Scheduler :=
  let kept :=
    match action with
    | .resume _ => s.pending.filter fun r => r.action ≠ action
    | .complete _ => s.pending
  { s with nextSeq := s.nextSeq + 1, pending := kept ++ [⟨s.nextSeq, due, action⟩] }

/-- A number of seconds from now; a negative one is due at once. -/
def afterSeconds (s : Scheduler) (seconds : Float) : Due :=
  .seconds (s.now + laterTime seconds 0)

/-- The largest frame number. -/
def lastFrame : Nat := UInt64.size - 1

/-- A number of frames from now, at least one. -/
def afterFrames (s : Scheduler) (frames : Int64) : Due :=
  .frame (min (s.frame + max frames.toInt.toNat 1) lastFrame)

/-! ### Clock -/

/-- Move to the next frame. -/
def advanceFrame (s : Scheduler) : Scheduler :=
  { s with frame := s.frame + 1, now := s.now + s.frameSeconds }

/-- Let time pass. -/
def advanceSeconds (s : Scheduler) (seconds : Float) : Scheduler :=
  { s with now := s.now + laterTime seconds 0 }

/-- Move the clock up to where a request is due. -/
def advanceTo (s : Scheduler) : Due → Scheduler
  | .seconds time => { s with now := laterTime s.now time }
  | .frame number => Nat.repeat advanceFrame (number - s.frame) s
  | .completion .. => s

/-! ### Taking requests -/

/-- Is a request due by the clock? -/
def isDue (s : Scheduler) : Due → Bool
  | .seconds time => decide (time ≤ s.now)
  | .frame number => decide (number ≤ s.frame)
  | .completion .. => false

/-- Take the oldest request with a property. -/
def take? (s : Scheduler) (p : Request → Bool) : Option (Request × Scheduler) :=
  (takeFirst p s.pending).map fun (r, pending) => (r, { s with pending })

/-- Take the oldest timer that is due. -/
def takeDueTimer? (s : Scheduler) : Option (Request × Scheduler) :=
  s.take? fun r => s.isDue r.due

/-- Take the oldest request for tasks that are done. -/
def takeReady? (s : Scheduler) (done : List TaskId → JoinMode → Bool) :
    Option (Request × Scheduler) :=
  s.take? fun r =>
    match r.due with
    | .completion tasks mode => done tasks mode
    | .seconds _ | .frame _ => false

/-- The numbers of the outstanding timers. -/
def timerSeqs (s : Scheduler) : List Nat :=
  (s.pending.filter fun r => r.due.isTimer).map Request.seq

/-- Take the request of a number, and move the clock up to where it is due. -/
def takeSeq? (s : Scheduler) (seq : Nat) : Option (Request × Scheduler) :=
  (s.take? fun r => r.seq == seq).map fun (r, s) => (r, s.advanceTo r.due)

end Scheduler

end Resumable
