import Resumable.Bound.Access
import Resumable.IdSet
import Resumable.Lower.Stretch

/-!
# Liveness of locals across segments

A local is live on entry to a segment when its value there may still be read. Segments follow
each other in a chain, so one backward sweep computes the live sets: a segment needs what it
reads before writing it, and what later segments need unless it writes it.

Only top-level statements count as writes here; a write below an `if`, a `while` or in a
closure may not happen. The value delivered by a suspension is written at the start of the
next segment.

## Main definitions

* `SegmentFlow`: what a segment reads first and what it writes.
* `SegmentLiveness`, `segmentLiveness`: the flows and the live sets of a body.
-/

namespace Resumable

open Resumable.Bound (Stmt Access)

/-- The locals that a statement reads, anywhere inside it. -/
def readsOf (s : Stmt) : List LocalId := s.accesses.filterMap Access.read?

/-- The locals that a statement introduces, anywhere inside it. -/
def declaresOf (s : Stmt) : List LocalId := s.accesses.filterMap Access.declared?

/-- The local that a top-level statement writes in any case. -/
def writes? : Stmt → Option LocalId
  | .declare _ id | .bind _ id _ | .assign _ (.localVar id) _ => some id
  | _ => none

/-- What a segment reads before writing it, and what it writes. -/
structure SegmentFlow where
  gen : IdSet
  kill : IdSet
  deriving DecidableEq

namespace SegmentFlow

/-- Locals are read. -/
def read (f : SegmentFlow) (ids : List LocalId) : SegmentFlow :=
  { f with gen := f.gen.union ((IdSet.ofList ids).diff f.kill) }

/-- A local may be written. -/
def write (f : SegmentFlow) (id? : Option LocalId) : SegmentFlow :=
  match id? with
  | some id => { f with kill := f.kill.insert id }
  | none => f

/-- A plain statement runs. -/
def step (f : SegmentFlow) (s : Stmt) : SegmentFlow := (f.read (readsOf s)).write (writes? s)

/-- What is live before the segment, given what is live after it. -/
def liveBefore (f : SegmentFlow) (after : IdSet) : IdSet := f.gen.union (after.diff f.kill)

end SegmentFlow

/-- The local that a point delivers into. -/
def SuspensionPoint.delivered? (p : SuspensionPoint) : Option LocalId :=
  p.delivery.bind Delivery.local?

namespace Stretch

/-- The flow of a stretch: the delivery that opens it, its statements, the operand that closes
it. -/
def flow (s : Stretch) : SegmentFlow :=
  let start :=
    (⟨.empty, .empty⟩ : SegmentFlow).write (s.opening.bind SuspensionPoint.delivered?)
  let body := s.stmts.foldl SegmentFlow.step start
  match s.closing with
  | some p => body.read (readsOf p.stmt)
  | none => body

/-- The locals introduced in a stretch. -/
def declares (s : Stretch) : List LocalId :=
  s.stmts.flatMap declaresOf ++
    match s.closing with
    | some p => declaresOf p.stmt
    | none => []

end Stretch

/-- The live sets of a chain of segments, first segment first. -/
def liveSets : List SegmentFlow → List IdSet
  | [] => []
  | f :: rest => f.liveBefore ((liveSets rest).head?.getD .empty) :: liveSets rest

/-- Flows and live sets of a body. -/
structure SegmentLiveness where
  flows : List SegmentFlow
  liveIn : List IdSet
  /-- The locals introduced in each segment. -/
  declared : List (List LocalId)
  deriving DecidableEq

/-- The liveness of a body that is cut into stretches. -/
def segmentLiveness (stretches : List Stretch) : SegmentLiveness :=
  let flows := stretches.map Stretch.flow
  ⟨flows, liveSets flows, stretches.map Stretch.declares⟩

namespace SegmentLiveness

/-- The first segment that introduces a local. -/
def declaredIn? (l : SegmentLiveness) (id : LocalId) : Option Nat :=
  l.declared.findIdx? fun ids => ids.contains id

/-- Every local that is introduced, with its segment, in order. -/
def declarations (l : SegmentLiveness) : List (LocalId × Nat) :=
  (IdSet.ofList l.declared.flatten).elems.filterMap fun id =>
    (l.declaredIn? id).map fun segment => (id, segment)

end SegmentLiveness

end Resumable
