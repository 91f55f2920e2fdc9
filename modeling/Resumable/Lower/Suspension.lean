import Resumable.Lower.Shape

/-!
# Suspension points

Every suspension of a body is classified by its operand. Scheduling primitives are recognised
by what the binder resolved them to; any other operand of deferred type delegates to another
procedure; anything else is a problem.

## Main definitions

* `SuspensionKind`: what is waited for.
* `SuspensionPoint`: a suspension of a body, with where its value goes.
* `suspensionPoints`: the points of a body in order, or all problems.
-/

namespace Resumable

open Resumable.Bound (Expr Stmt Place Procedure)

/-- What a suspension waits for. -/
inductive SuspensionKind where
  | timedDelay (duration : Expr)
  | frameDelay (frames : Expr)
  | yieldStep
  | joinAll (operands : List Expr)
  | joinAny (operands : List Expr)
  /-- A deferred result that is no primitive. -/
  | delegate (operand : Expr)

namespace SuspensionKind

/-- The tasks waited for, by the operands that produce them. -/
def awaited : SuspensionKind → List Expr
  | .joinAll operands | .joinAny operands => operands
  | .delegate operand => [operand]
  | .timedDelay _ | .frameDelay _ | .yieldStep => []

/-- Do tasks end the wait, and not time? -/
def awaitsTasks : SuspensionKind → Bool
  | .joinAll _ | .joinAny _ | .delegate _ => true
  | .timedDelay _ | .frameDelay _ | .yieldStep => false

/-- Number of tasks held while waiting. -/
def taskCount : SuspensionKind → Nat
  | .joinAll operands | .joinAny operands => operands.length
  | .delegate _ => 1
  | .timedDelay _ | .frameDelay _ | .yieldStep => 0

/-- The word for a kind of suspension. -/
def word : SuspensionKind → String
  | .timedDelay _ => "TimedDelay"
  | .frameDelay _ => "FrameDelay"
  | .yieldStep => "YieldOneStep"
  | .joinAll _ => "JoinAll"
  | .joinAny _ => "JoinAny"
  | .delegate _ => "DelegateToProcedure"

/-- How the awaited tasks are joined. -/
def mode : SuspensionKind → JoinMode
  | .joinAny _ => .any
  | _ => .all

end SuspensionKind

/-- Where the value of a suspension goes. -/
structure Delivery where
  target : Place
  /-- Does the statement also introduce the local? -/
  declares : Bool
  deriving DecidableEq, Repr

/-- The local that receives the value. -/
def Delivery.local? (d : Delivery) : Option LocalId :=
  match d.target with
  | .localVar id => some id
  | .param _ | .field _ => none

/-- A suspension of a body. -/
structure SuspensionPoint where
  /-- Its number among the suspensions of the body. -/
  index : Nat
  kind : SuspensionKind
  /-- Does its completion produce a value? -/
  carriesValue : Bool
  /-- The type of that value. -/
  valueTy : Ty
  /-- The top-level statement it stands in. -/
  stmt : Stmt
  /-- The position of that statement. -/
  position : Nat
  operand : Expr
  span : Span
  delivery : Option Delivery

/-! ### Classification -/

/-- A timing argument has to be a number, and a frame count an integer. -/
def acceptsTiming (which : Primitive) (ty : Ty) : Bool :=
  match which with
  | .delayFrames => ty == .int
  | _ => ty.isNumeric

/-- The kind of a timed primitive, from its arguments. -/
def classifyTimed (names : NameTable) (which : Primitive) (make : Expr → SuspensionKind)
    (args : List Expr) (span : Span) : Except (List Problem) SuspensionKind :=
  match args with
  | [timing] =>
    if acceptsTiming which timing.ty then .ok (make timing)
    else .error [.nonNumericTiming which (timing.ty.text names) timing.span]
  | _ => .error [.primitiveArity which .one args.length span]

/-- The kind of a join, from its operands. -/
def classifyJoin (names : NameTable) (which : Primitive) (make : List Expr → SuspensionKind)
    (args : List Expr) (span : Span) : Except (List Problem) SuspensionKind :=
  if args.isEmpty then .error [.primitiveArity which .atLeastOne args.length span]
  else
    let strangers := args.filter fun arg => !arg.ty.isDeferred
    if strangers.isEmpty then .ok (make args)
    else
      .error (strangers.map fun arg => .nonDeferredOperand which (arg.ty.text names) arg.span)

/-- The kind of a call of a primitive. -/
def classifyPrimitive (names : NameTable) (which : Primitive) (args : List Expr)
    (span : Span) : Except (List Problem) SuspensionKind :=
  match which with
  | .delay => classifyTimed names which .timedDelay args span
  | .delayFrames => classifyTimed names which .frameDelay args span
  | .yield =>
    if args.isEmpty then .ok .yieldStep
    else .error [.primitiveArity which .none args.length span]
  | .whenAll => classifyJoin names which .joinAll args span
  | .whenAny => classifyJoin names which .joinAny args span

/-- Does the type deliver a value? -/
def deliversValue (ty : Ty) : Bool :=
  match ty.output? with
  | some output => output != .unit
  | none => false

/-- The kind of a suspension on an operand, and whether its completion carries a value. Time
carries none, whatever the type says. -/
def classify (names : NameTable) (operand : Expr) :
    Except (List Problem) (SuspensionKind × Bool) :=
  match operand with
  | .call info (.primitive which) args =>
    match classifyPrimitive names which args info.span with
    | .ok kind => .ok (kind, deliversValue info.ty && kind.awaitsTasks)
    | .error problems => .error problems
  | _ =>
    if operand.ty.isDeferred then .ok (.delegate operand, deliversValue operand.ty)
    else .error [.unrecognizedSuspension operand.span (operand.ty.text names)]

/-! ### The points of a body -/

/-- Where a statement that is a suspension puts the value. -/
def deliveryOf : Stmt → Option Delivery
  | .bind _ id _ => some ⟨.localVar id, true⟩
  | .assign _ target _ => some ⟨target, false⟩
  | _ => none

/-- The name of a place in messages. -/
def placeName (names : NameTable) (p : Procedure) (place : Place) : String :=
  let name? :=
    match place with
    | .localVar id => (p.local? id).map LocalDecl.name
    | .param i => (p.param? i).map Param.name
    | .field name => some name
  match name? with
  | some name => names.lookup name
  | none => "<unknown>"

/-- A top-level statement that is a suspension. -/
structure SuspensionSite where
  stmt : Stmt
  position : Nat
  info : ExprInfo
  operand : Expr

/-- The suspending top-level statements of a body. -/
def suspensionSites (stmts : List Stmt) : List SuspensionSite :=
  stmts.zipIdx.filterMap fun (stmt, position) =>
    (suspensionOf stmt).map fun (info, operand) => ⟨stmt, position, info, operand⟩

/-- The point of a site, or its problems. A value must not be taken where none is carried. -/
def SuspensionSite.point (names : NameTable) (p : Procedure) (site : SuspensionSite)
    (index : Nat) : Except (List Problem) SuspensionPoint :=
  match classify names site.operand with
  | .error problems => .error problems
  | .ok (kind, carriesValue) =>
    let point : SuspensionPoint :=
      { index, kind, carriesValue
        valueTy := if carriesValue then site.operand.ty.output?.getD .unit else .unit
        stmt := site.stmt, position := site.position, operand := site.operand
        span := site.info.span, delivery := deliveryOf site.stmt }
    match point.delivery with
    | none => .ok point
    | some delivery =>
      if carriesValue then .ok point
      else .error [.valuelessDelivery (placeName names p delivery.target) site.stmt.span]

/-- The values of the successes, or the problems of all failures. -/
def gather {α : Type} (results : List (Except (List Problem) α)) :
    Except (List Problem) (List α) :=
  let problems := results.flatMap fun
    | .ok _ => []
    | .error problems => problems
  if problems.isEmpty then
    .ok (results.filterMap fun
      | .ok a => some a
      | .error _ => none)
  else .error problems

/-- The suspension points of a body in order, or the problems of all of them. -/
def suspensionPoints (names : NameTable) (p : Procedure) :
    Except (List Problem) (List SuspensionPoint) :=
  gather ((suspensionSites p.stmts).mapIdx fun index site => site.point names p index)

end Resumable
