import Resumable.Lower.Slotted

/-!
# Segments

A segment is what runs between two suspensions: the value delivered by the suspension before
it, the slotted statements of its stretch, and the stores of the tasks that the next
suspension awaits.

Locals that are not hoisted live for one run only. A segment that uses one it has not
introduced introduces it itself: where the first use is an assignment at the top level, that
assignment becomes the introduction; otherwise the local is introduced without a value at the
start.

## Main definitions

* `Resumption`: what ends the wait after a segment.
* `Segment`, `segments`: the segments of a body, one more than it has suspension points.
-/

namespace Resumable

open Resumable.Bound (Stmt Access Procedure)
open Machine (SlotId Timing)

/-- What the host is asked to wait for. -/
inductive Resumption where
  | seconds (duration : Machine.Expr)
  | frames (count : Machine.Expr)
  | nextFrame
  | join (mode : JoinMode) (tasks : List SlotId)
  | delegate (task : SlotId)

namespace Resumption

/-- The awaited tasks and how they are joined, where tasks end the wait. -/
def awaited? : Resumption → Option (List SlotId × JoinMode)
  | .join mode tasks => some (tasks, mode)
  | .delegate task => some ([task], .all)
  | .seconds _ | .frames _ | .nextFrame => none

/-- When the call back happens. -/
def timing : Resumption → Timing
  | .seconds duration => .seconds duration
  | .frames count => .frames count
  | .nextFrame => .nextFrame
  | .join mode tasks => .completion tasks mode
  | .delegate task => .completion [task] .all

/-- The word for a kind of wait. -/
def word : Resumption → String
  | .seconds _ => "seconds"
  | .frames _ => "frames"
  | .nextFrame => "next_frame"
  | .join .. => "join"
  | .delegate _ => "delegate"

end Resumption

/-- How a segment ends in a suspension. -/
structure SegmentExit where
  /-- The number of the suspension point. -/
  point : Nat
  request : Resumption

/-- What runs between two suspensions. -/
structure Segment where
  index : Nat
  body : List Machine.Stmt
  /-- The suspension that ends it; the last segment has none. -/
  exit : Option SegmentExit

/-- Is this the last segment? -/
def Segment.isTerminal (s : Segment) : Bool := s.exit.isNone

/-! ### Locals that live for one run -/

/-- The locals that a segment has introduced, and those that it used first, in order of first
use. -/
structure Usage where
  declared : List LocalId
  undeclared : List LocalId
  deriving DecidableEq, Repr

namespace Usage

/-- Nothing was used. -/
def none : Usage := ⟨[], []⟩

/-- Was the local introduced or used? -/
def knows (u : Usage) (id : LocalId) : Bool :=
  u.declared.contains id || u.undeclared.contains id

/-- The local is introduced. -/
def declare (u : Usage) (id : LocalId) : Usage := { u with declared := id :: u.declared }

/-- The local is used. -/
def touch (u : Usage) (id : LocalId) : Usage :=
  if u.knows id then u else { u with undeclared := u.undeclared ++ [id] }

/-- A hoisted local does not count. -/
def access (l : SlotLayout) (u : Usage) : Access → Usage
  | .declare id => if (l.local? id).isSome then u else u.declare id
  | .readLocal id | .writeLocal id => if (l.local? id).isSome then u else u.touch id
  | .readParam _ | .writeParam _ | .suspend => u

/-- Accesses in order. -/
def accessAll (l : SlotLayout) (u : Usage) (accesses : List Access) : Usage :=
  accesses.foldl (access l) u

end Usage

/-! ### The parts of a segment -/

/-- The local that a top-level statement assigns before the segment has introduced or used
it. -/
def firstAssigned? (l : SlotLayout) (u : Usage) : Stmt → Option (Span × LocalId × Bound.Expr)
  | .assign info (.localVar id) value =>
    if (l.local? id).isNone && !u.knows id then some (info.span, id, value) else none
  | _ => none

/-- A top-level statement of a segment. -/
def topStmt (l : SlotLayout) (u : Usage) (s : Stmt) : Option Machine.Stmt × Usage :=
  match firstAssigned? l u s with
  | some (span, id, value) =>
    (some (.bind span id (slottedExpr l value)), (u.accessAll l value.accesses).declare id)
  | none => (slottedStmt l false s, u.accessAll l s.accesses)

/-- The top-level statements of a segment. -/
def topStmts (l : SlotLayout) (u : Usage) : List Stmt → List Machine.Stmt × Usage
  | [] => ([], u)
  | s :: rest =>
    let (first?, u) := topStmt l u s
    let (others, u) := topStmts l u rest
    (first?.toList ++ others, u)

/-- The statement that delivers the value of a suspension. Only tasks deliver a value. -/
def deliveryStmt (l : SlotLayout) (p : SuspensionPoint) (u : Usage) :
    Option Machine.Stmt × Usage :=
  match p.delivery with
  | none => (none, u)
  | some delivery =>
    if p.carriesValue && p.kind.awaitsTasks then
      let value := .taskValue ⟨p.valueTy, p.span⟩ (l.awaits p.index) p.kind.mode
      match l.place delivery.target with
      | .localVar id => (some (.bind p.span id value), u.declare id)
      | target => (some (.assign p.span target value), u)
    else (none, u)

/-- The introduction of a local without a value. -/
def introduce (id : LocalId) : Machine.Stmt := .bind .none id .absent

/-- The store of an awaited task. -/
def taskStore (l : SlotLayout) (operand : Bound.Expr) (slot : SlotId) : Machine.Stmt :=
  .assign operand.span (.slot slot) (slottedExpr l operand)

/-- The awaited operands of a point, each with its slot. -/
def taskStores (l : SlotLayout) (p : SuspensionPoint) : List (Bound.Expr × SlotId) :=
  p.kind.awaited.zip (l.awaits p.index)

/-- What a suspension asks the host for. -/
def resumptionOf (l : SlotLayout) (p : SuspensionPoint) : Resumption :=
  match p.kind with
  | .timedDelay duration => .seconds (slottedExpr l duration)
  | .frameDelay count => .frames (slottedExpr l count)
  | .yieldStep => .nextFrame
  | .joinAll _ => .join .all (l.awaits p.index)
  | .joinAny _ => .join .any (l.awaits p.index)
  | .delegate _ =>
    match l.awaits p.index with
    | slot :: _ => .delegate slot
    | [] => .nextFrame

/-- The operands that a suspension evaluates. -/
def closingOperands (l : SlotLayout) (p : SuspensionPoint) : List Bound.Expr :=
  match p.kind with
  | .timedDelay e | .frameDelay e => [e]
  | .yieldStep => []
  | .joinAll _ | .joinAny _ | .delegate _ => (taskStores l p).map Prod.fst

/-- The problems of a suspension: strays in its operands, or a delegate without a slot. -/
def closingStrays (l : SlotLayout) (p : SuspensionPoint) : List Problem :=
  (closingOperands l p).flatMap exprStrays ++
    match p.kind with
    | .delegate _ =>
      if (l.awaits p.index).isEmpty then
        [.internalError s!"no await slot for suspension point {p.index}" p.span]
      else []
    | _ => []

/-! ### Segments -/

namespace Stretch

/-- What of a stretch has no place in a segment. -/
def strays (l : SlotLayout) (s : Stretch) : List Problem :=
  blockStrays s.stmts ++
    match s.closing with
    | some p => closingStrays l p
    | none => []

/-- The delivery that opens a stretch. -/
def delivery (l : SlotLayout) (s : Stretch) : Option Machine.Stmt × Usage :=
  match s.opening with
  | some p => deliveryStmt l p .none
  | none => (none, .none)

/-- The stores of the tasks awaited after a stretch. -/
def stores (l : SlotLayout) (s : Stretch) : List Machine.Stmt :=
  match s.closing with
  | some p => (taskStores l p).map fun (operand, slot) => taskStore l operand slot
  | none => []

/-- The accesses of the operands that close a stretch. -/
def closingAccesses (l : SlotLayout) (s : Stretch) : List Access :=
  match s.closing with
  | some p => (closingOperands l p).flatMap Bound.Expr.accesses
  | none => []

/-- How a stretch ends. -/
def exit? (l : SlotLayout) (s : Stretch) : Option SegmentExit :=
  s.closing.map fun p => ⟨p.index, resumptionOf l p⟩

/-- The segment of a stretch. -/
def segment (l : SlotLayout) (index : Nat) (s : Stretch) : Segment :=
  let (delivered, u) := s.delivery l
  let (stmts, u) := topStmts l u s.stmts
  let u := u.accessAll l (s.closingAccesses l)
  ⟨index, delivered.toList ++ u.undeclared.map introduce ++ stmts ++ s.stores l, s.exit? l⟩

end Stretch

/-- The segments of a body, or everything in it that has no place in a segment. -/
def segments (p : Procedure) (points : List SuspensionPoint) (l : SlotLayout) :
    Except (List Problem) (List Segment) :=
  match p.body with
  | .expr e => .error [.expressionBody e.span]
  | .block stmts =>
    let stretches := cut stmts points
    let problems := stretches.flatMap fun s => s.strays l
    if problems.isEmpty then .ok (stretches.mapIdx fun index s => s.segment l index)
    else .error problems

end Resumable
