import Resumable.Lower.Liveness
import Resumable.Lower.SlotNamer
import Resumable.Machine.Syntax

/-!
# Hoisting

Which variables have to move into persistent slots. Every segment runs inside the dispatch, so
each parameter that the body mentions is hoisted, and the cancellation handle always. A local
is hoisted when it outlives a suspension, which can be judged in two ways.

* *Positional*: a suspension lies between the introduction of the local and a later reference,
  in evaluation order.
* *Dataflow*: the local is live on entry to a segment after the one that introduces it.

## Main definitions

* `positionalLocals`, `dataflowLocals`: the two judgements.
* `hoist`: the hoisted variables with their slot names, or the variables that cannot be
  stored.
-/

namespace Resumable

open Resumable.Bound (Access Procedure)
open Machine (Origin)

/-- How it is judged which locals outlive a suspension. -/
inductive LivenessMode where
  | positional
  | dataflow
  deriving DecidableEq, Repr

/-- What follows the introduction of a local; everything, when nothing introduces it. -/
def afterDeclaration (id : LocalId) (accesses : List Access) : List Access :=
  if .declare id ∈ accesses then (accesses.dropWhile (· ≠ .declare id)).drop 1 else accesses

/-- Is there a suspension between the introduction of a local and a reference to it? -/
def outlivesSuspension (accesses : List Access) (id : LocalId) : Bool :=
  ((afterDeclaration id accesses).dropWhile (· ≠ .suspend)).any fun a =>
    a.referenced? == some id

/-- The locals to hoist by position. -/
def positionalLocals (accesses : List Access) : IdSet :=
  .ofList ((accesses.filterMap Access.referenced?).filter (outlivesSuspension accesses))

/-- The locals to hoist by dataflow. A local that nothing introduces counts as introduced in
the first segment. -/
def dataflowLocals (l : SegmentLiveness) : IdSet :=
  .ofList (l.liveIn.zipIdx.flatMap fun (live, segment) =>
    live.elems.filter fun id => decide ((l.declaredIn? id).getD 0 < segment))

/-- A variable to hoist. -/
structure Variable where
  origin : Origin
  name : Name
  ty : Ty
  span : Span
  deriving DecidableEq, Repr

/-- A hoisted variable with the name of its slot. -/
structure Hoisted extends Variable where
  slotName : Name
  deriving DecidableEq, Repr

/-- The parameters to hoist. -/
def hoistedParams (p : Procedure) (accesses : List Access) : List Variable :=
  (IdSet.ofList (accesses.filterMap Access.param? ++ p.cancellation.toList)).elems.filterMap
    fun i => (p.param? i).map fun param => ⟨.param i, param.name, param.ty, param.span⟩

/-- The locals to hoist. -/
def hoistedLocals (p : Procedure) (mode : LivenessMode) (points : List SuspensionPoint) :
    List Variable :=
  let ids :=
    match mode with
    | .positional => positionalLocals (Bound.accessesOf p.stmts)
    | .dataflow => dataflowLocals (segmentLiveness (cut p.stmts points))
  ids.elems.filterMap fun id =>
    (p.local? id).map fun decl => ⟨.localVar id, decl.name, decl.ty, decl.span⟩

/-- The variables to hoist: parameters first, each group in order. An expression body has
none. -/
def hoistedVariables (p : Procedure) (mode : LivenessMode) (points : List SuspensionPoint) :
    List Variable :=
  match p.body with
  | .expr _ => []
  | .block stmts => hoistedParams p (Bound.accessesOf stmts) ++ hoistedLocals p mode points

/-- Name the slots of variables. A variable whose type cannot be stored gets no slot and is a
problem. -/
def nameSlots (namer : SlotNamer) : List Variable → List Problem × List Hoisted × SlotNamer
  | [] => ([], [], namer)
  | v :: rest =>
    if v.ty.isPersistable then
      let (slotName, namer) := namer.fresh (namer.names.lookup v.name)
      let (problems, hoisted, namer) := nameSlots namer rest
      (problems, ⟨v, slotName⟩ :: hoisted, namer)
    else
      let problem :=
        .unpersistableSlot (namer.names.lookup v.name) (v.ty.text namer.names) v.span
      let (problems, hoisted, namer) := nameSlots namer rest
      (problem :: problems, hoisted, namer)

/-- The hoisted variables of a procedure, or the problems. The names handed out stay handed
out in either case. -/
def hoist (p : Procedure) (points : List SuspensionPoint) (mode : LivenessMode)
    (namer : SlotNamer) : Except (List Problem) (List Hoisted) × SlotNamer :=
  let (problems, hoisted, namer) := nameSlots namer (hoistedVariables p mode points)
  (if problems.isEmpty then .ok hoisted else .error problems, namer)

end Resumable
