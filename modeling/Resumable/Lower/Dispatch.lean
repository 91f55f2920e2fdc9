import Resumable.Lower.Segment

/-!
# Entry and dispatch

The two procedures around the segments of a body.

The entry sets the state to 0 and the status to running, stores each hoisted parameter,
invokes the dispatch and returns the task that observes the activation.

The dispatch does nothing unless the status is running. It has one arm for each state. An arm
checks for cancellation, waits again when it was called before the awaited tasks were done,
runs its segment, and then either moves to the next state and asks to be called back, or
finishes.

## Main definitions

* `entryBody`, `dispatchBody`: the two bodies.
-/

namespace Resumable

open Resumable.Bound (Procedure)
open Machine (Arm Slot SlotId Stmt TaskStatus)

/-- Write a value into a slot. -/
def storeSlot (span : Span) (slot : SlotId) (value : Machine.Expr) : Stmt :=
  .assign span (.slot slot) value

/-- The number of a status, as an expression. -/
def statusCode (span : Span) (status : TaskStatus) : Machine.Expr :=
  .int ⟨.int, span⟩ status.code

/-- Leave the procedure without a value. -/
def leaveProcedure (span : Span) : Stmt := .ret span .absent

/-! ### Entry -/

/-- The store of a hoisted parameter into its slot. -/
def paramStore (p : Procedure) (slot : Slot) : Option Stmt :=
  match slot.role with
  | .hoisted (.param i) =>
    let ty := ((p.param? i).map Param.ty).getD slot.ty
    some (storeSlot p.span slot.id (.param ⟨ty, p.span⟩ i))
  | _ => none

/-- The body of the entry. -/
def entryBody (p : Procedure) (l : SlotLayout) (dispatch : Name) : List Stmt :=
  [.setState p.span 0, storeSlot p.span l.status (statusCode p.span .running)] ++
    l.slots.filterMap (paramStore p) ++
    [.invoke p.span dispatch, .returnTask p.span]

/-! ### Dispatch -/

/-- Finish as cancelled when cancellation was requested. -/
def cancelCheck (span : Span) (token : SlotId) : Stmt :=
  .branch span (.cancelRequested ⟨.bool, span⟩ token) [.finish span .cancelled .absent] []

/-- Wait again when the awaited tasks are not done. -/
def awaitGuard (span : Span) (dispatch : Name) (tasks : List SlotId) (mode : JoinMode) :
    Stmt :=
  .branch span (.unary ⟨.bool, span⟩ .not (.tasksDone ⟨.bool, span⟩ tasks mode))
    [.schedule span dispatch (.completion tasks mode), leaveProcedure span] []

/-- The end of an arm. -/
def armEnd (span : Span) (dispatch : Name) (s : Segment) : List Stmt :=
  match s.exit with
  | some exit =>
    [.setState span (s.index + 1), .schedule span dispatch exit.request.timing,
      leaveProcedure span]
  | none => [.finish span .succeeded .absent]

/-- The arm of a segment, given what the segment before it waits for. -/
def armOf (span : Span) (l : SlotLayout) (dispatch : Name) (previous : Option Segment)
    (s : Segment) : Arm :=
  let awaited := (previous.bind Segment.exit).bind fun exit => exit.request.awaited?
  .mk s.index
    ((l.cancel.map (cancelCheck span)).toList ++
      (awaited.map fun (tasks, mode) => awaitGuard span dispatch tasks mode).toList ++
      s.body ++ armEnd span dispatch s)

/-- The arms of segments, the first of which follows `previous`. -/
def armsFrom (span : Span) (l : SlotLayout) (dispatch : Name) (previous : Option Segment) :
    List Segment → List Arm
  | [] => []
  | s :: rest => armOf span l dispatch previous s :: armsFrom span l dispatch (some s) rest

/-- Leave when the activation is over. -/
def statusGuard (span : Span) (status : SlotId) : Stmt :=
  .branch span
    (.binary ⟨.bool, span⟩ .ne (.slot ⟨.int, span⟩ status) (statusCode span .running))
    [leaveProcedure span] []

/-- The body of the dispatch. -/
def dispatchBody (span : Span) (segments : List Segment) (l : SlotLayout) (dispatch : Name) :
    List Stmt :=
  [statusGuard span l.status, .switch span l.state (armsFrom span l dispatch none segments)]

end Resumable
