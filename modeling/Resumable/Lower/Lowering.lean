import Resumable.Diagnostic.Queue
import Resumable.Lower.Dispatch
import Resumable.Machine.Extent

/-!
# Lowering

A procedure with suspensions becomes a machine without them. The steps are: check the shape,
find the suspension points, hoist, lay out slots, cut segments, and put the entry and the
dispatch around them. The first step with problems ends the work on a procedure; the other
procedures of a module are lowered all the same.

Slot names go into the name table that the whole program shares, so lowering returns the table
in every case.

## Main definitions

* `lowerProcedure`: the machine of a procedure, or its problems.
* `lowerModule`: the machines of those procedures that can be lowered; problems go to a sink.
-/

namespace Resumable

open Resumable.Bound (Procedure)

/-- What can be chosen about lowering. -/
structure LowerOptions where
  liveness : LivenessMode := .positional
  /-- What every slot name starts with. -/
  slotPrefix : String := "__"
  deriving DecidableEq, Repr

/-- Why there is no machine. -/
inductive LowerError where
  /-- The procedure has problems. -/
  | failed (failure : LowerFailure)
  /-- A list of the machine is too long to be stored. -/
  | oversized (list : Oversized)
  deriving DecidableEq, Repr

/-- The machine around the segments of a procedure. -/
def assemble (p : Procedure) (segments : List Segment) (l : SlotLayout) (dispatch : Name) :
    Machine where
  procedure := p.name
  params := p.params
  locals := p.locals.filter fun decl => (l.local? decl.id).isNone
  result := p.result
  slots := l.slots
  stateSlot := l.state
  statusSlot := l.status
  resultSlot := l.result
  cancelSlot := l.cancel
  entry := { name := p.name, body := entryBody p l dispatch }
  dispatch := { name := dispatch, body := dispatchBody p.span segments l dispatch }
  stateCount := segments.length

/-- The steps that name slots, from the suspension points on. -/
def lowerPoints (options : LowerOptions) (p : Procedure) (points : List SuspensionPoint)
    (names : NameTable) : Except (List Problem) Machine × NameTable :=
  let namer := SlotNamer.new names options.slotPrefix (names.lookup p.name)
  let (books, namer) := namer.bookkeeping
  let (hoisted?, namer) := hoist p points options.liveness namer
  match hoisted? with
  | .error problems => (.error problems, namer.names)
  | .ok hoisted =>
    let (layout?, namer) := layOut p points hoisted books namer
    match layout? with
    | .error problems => (.error problems, namer.names)
    | .ok layout =>
      match segments p points layout with
      | .error problems => (.error problems, namer.names)
      | .ok segs =>
        let (dispatch, namer) := namer.dispatch
        (.ok (assemble p segs layout dispatch), namer.names)

/-- The machine of a procedure, or the problems of the first step that has some. -/
def lowerSteps (options : LowerOptions) (p : Procedure) (names : NameTable) :
    Except (List Problem) Machine × NameTable :=
  let problems := shapeProblems names p
  if problems.isEmpty then
    match suspensionPoints names p with
    | .error problems => (.error problems, names)
    | .ok points => lowerPoints options p points names
  else (.error problems, names)

/-- Lower a procedure. -/
def lowerProcedure (options : LowerOptions) (p : Procedure) (names : NameTable) :
    Except LowerError Machine × NameTable :=
  match lowerSteps options p names with
  | (.error problems, names') => (.error (.failed ⟨names.lookup p.name, problems⟩), names')
  | (.ok machine, names') =>
    match machine.overlong? with
    | some list => (.error (.oversized list), names')
    | none => (.ok machine, names')

/-! ### Modules -/

/-- The machines of a module, and what its sink received. -/
structure LoweredModule (σ : Type) where
  machines : List Machine
  names : NameTable
  sink : σ
  /-- The last error that the sink took. -/
  errors : Option ErrorReported

/-- The sink that keeps every diagnostic. -/
def collect (sink : List Diagnostic) (d : Diagnostic) : List Diagnostic × ErrorReported :=
  (sink ++ [d], .evidence)

/-- Give diagnostics to a sink, in order. -/
def reportAll {σ : Type} (report : σ → Diagnostic → σ × ErrorReported) (sink : σ)
    (errors : Option ErrorReported) : List Diagnostic → σ × Option ErrorReported
  | [] => (sink, errors)
  | d :: rest =>
    let (sink, error) := report sink d
    reportAll report sink (some error) rest

/-- Lower procedures in order. A procedure that fails gives its diagnostics to the sink. -/
def lowerModule {σ : Type} (report : σ → Diagnostic → σ × ErrorReported)
    (options : LowerOptions) (names : NameTable) (sink : σ) (errors : Option ErrorReported) :
    List Procedure → Except Oversized (LoweredModule σ)
  | [] => .ok ⟨[], names, sink, errors⟩
  | p :: rest =>
    match lowerProcedure options p names with
    | (.ok machine, names) =>
      (lowerModule report options names sink errors rest).map fun m =>
        { m with machines := machine :: m.machines }
    | (.error (.failed failure), names) =>
      let (sink, errors) := reportAll report sink errors failure.diagnostics
      lowerModule report options names sink errors rest
    | (.error (.oversized list), _) => .error list

end Resumable
