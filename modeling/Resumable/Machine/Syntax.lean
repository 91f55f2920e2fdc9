import Resumable.Signature

/-!
# Machines

A machine is the lowered form of a procedure: persistent slots, which live per instance, and
two procedures that never suspend. The entry resets the slots and runs the first step. The
dispatch is called back by the host; it switches on the state slot, runs one segment, and
either asks to be called again or finishes. Waiting is a `schedule` statement followed by a
return.

## Main definitions

* `Machine.Expr`, `Machine.Stmt`, `Machine.Arm`, `Machine.Timing`: the trees.
* `Machine.Slot`, `Machine.Role`: persistent slots and what each is for.
* `Machine`: slots and the two procedures.

An absent expression is a tree of its own, `Expr.absent`: it is allowed as the first value of
a `let` and as the value of a return or finish. A machine given by hand may also name a
statement by its number, which is `Stmt.unresolved`. A procedure therefore has its body twice:
as it is written, and as it runs, with the named statements in place. The two are the same
where nothing is named.
-/

namespace Resumable

namespace Machine

/-- The number of a persistent slot, which is its position. -/
abbrev SlotId := Nat

/-- How an activation stands. -/
inductive TaskStatus where
  | running
  | succeeded
  | cancelled
  deriving DecidableEq, Repr

namespace TaskStatus

/-- The number kept in the status slot. -/
def code : TaskStatus → Int64
  | .running => 0
  | .succeeded => 1
  | .cancelled => 2

/-- The status that a number stands for. -/
def ofCode? (code : Int64) : Option TaskStatus :=
  if code = 0 then some .running
  else if code = 1 then some .succeeded
  else if code = 2 then some .cancelled
  else none

/-- The word for a status in listings. -/
def word : TaskStatus → String
  | .running => "running"
  | .succeeded => "succeeded"
  | .cancelled => "cancelled"

theorem ofCode?_code (s : TaskStatus) : ofCode? s.code = some s := by
  cases s <;> rfl

end TaskStatus

/-- A location that lowered code can assign. -/
inductive Place where
  | localVar (id : LocalId)
  | param (index : Nat)
  | field (name : Name)
  | slot (id : SlotId)
  deriving DecidableEq, Repr

mutual

/-- A lowered expression. -/
inductive Expr where
  | int (info : ExprInfo) (value : Int64)
  | float (info : ExprInfo) (bits : UInt64)
  | bool (info : ExprInfo) (value : Bool)
  | str (info : ExprInfo) (value : Name)
  | unit (info : ExprInfo)
  | localVar (info : ExprInfo) (id : LocalId)
  | param (info : ExprInfo) (index : Nat)
  | field (info : ExprInfo) (name : Name)
  /-- The content of a persistent slot. -/
  | slot (info : ExprInfo) (id : SlotId)
  | binary (info : ExprInfo) (op : BinaryOp) (left right : Expr)
  | unary (info : ExprInfo) (op : UnaryOp) (operand : Expr)
  | call (info : ExprInfo) (target : CallTarget) (args : List Expr)
  | lambda (info : ExprInfo) (body : List Stmt)
  /-- Are the tasks in these slots done, all of them or one? -/
  | tasksDone (info : ExprInfo) (tasks : List SlotId) (mode : JoinMode)
  /-- What the tasks in these slots deliver: for `any` the position of the first that is done,
  for `all` over one task its result. -/
  | taskValue (info : ExprInfo) (tasks : List SlotId) (mode : JoinMode)
  /-- Has cancellation been requested on the handle in this slot? -/
  | cancelRequested (info : ExprInfo) (slot : SlotId)
  | error (info : ExprInfo)
  /-- No expression. -/
  | absent

/-- A lowered statement. -/
inductive Stmt where
  | expr (span : Span) (value : Expr)
  /-- Introduction of a local; an absent value stands for the default of its type. -/
  | bind (span : Span) (id : LocalId) (init : Expr)
  | assign (span : Span) (target : Place) (value : Expr)
  | branch (span : Span) (cond : Expr) (onTrue onFalse : List Stmt)
  | loop (span : Span) (cond : Expr) (body : List Stmt)
  | breakLoop (span : Span)
  | continueLoop (span : Span)
  /-- Leave the procedure or closure. -/
  | ret (span : Span) (value : Expr)
  /-- Write the state slot. -/
  | setState (span : Span) (state : Nat)
  /-- Ask the host to call the target back. -/
  | schedule (span : Span) (target : Name) (timing : Timing)
  /-- Call the target now. -/
  | invoke (span : Span) (target : Name)
  /-- Write the result, set the final status and leave. -/
  | finish (span : Span) (status : TaskStatus) (value : Expr)
  /-- Leave with the task that observes this activation. -/
  | returnTask (span : Span)
  /-- Run the first arm whose value is in the slot; none matching does nothing. -/
  | switch (span : Span) (scrutinee : SlotId) (arms : List Arm)
  /-- A statement that is only named by its number. In a body that runs, there is no such
  statement. -/
  | unresolved (number : Nat)

/-- One arm of a switch. -/
inductive Arm where
  | mk (value : Nat) (body : List Stmt)

/-- When a scheduled call happens. -/
inductive Timing where
  /-- After a number of seconds. -/
  | seconds (duration : Expr)
  /-- After a number of frames. -/
  | frames (count : Expr)
  | nextFrame
  /-- When the tasks in these slots are done. -/
  | completion (tasks : List SlotId) (mode : JoinMode)

end

instance : Inhabited Expr := ⟨.absent⟩

instance : Inhabited Stmt := ⟨.breakLoop .none⟩

/-- The state an arm is for. -/
def Arm.value : Arm → Nat
  | .mk value _ => value

/-- The statements of an arm. -/
def Arm.body : Arm → List Stmt
  | .mk _ body => body

/-- Is there no expression? -/
def Expr.isAbsent : Expr → Bool
  | .absent => true
  | _ => false

/-- The variable that a hoisted slot stands for. -/
inductive Origin where
  | param (index : Nat)
  | localVar (id : LocalId)
  deriving DecidableEq, Repr

/-- What a persistent slot is for. -/
inductive Role where
  /-- The segment to run next. -/
  | state
  /-- The status of the current activation. -/
  | status
  /-- The value the procedure completes with. -/
  | result
  /-- A variable that outlives a suspension. -/
  | hoisted (origin : Origin)
  /-- A task that is awaited at a suspension point. -/
  | awaited (point operand : Nat)
  deriving DecidableEq, Repr

/-- A persistent slot. -/
structure Slot where
  id : SlotId
  name : Name
  ty : Ty
  role : Role
  deriving DecidableEq, Repr

/-- A procedure of a machine. -/
structure Code where
  name : Name
  /-- What runs. -/
  body : List Stmt
  /-- The body as written, in which statements have their numbers. -/
  written : List Stmt := body
  deriving Inhabited

end Machine

/-- The lowered form of a procedure. -/
structure Machine where
  /-- The name of the procedure it was made from. -/
  procedure : Name
  params : List Param
  /-- The locals that live for one run only. -/
  locals : List LocalDecl
  result : Ty
  slots : List Machine.Slot
  stateSlot : Machine.SlotId
  statusSlot : Machine.SlotId
  resultSlot : Option Machine.SlotId
  /-- The slot of the cancellation handle. -/
  cancelSlot : Option Machine.SlotId
  entry : Machine.Code
  dispatch : Machine.Code
  /-- Number of segments. -/
  stateCount : Nat
  deriving Inhabited

namespace Machine

/-- The slots of hoisted variables. -/
def hoistedSlots (m : Machine) : List Slot :=
  m.slots.filter fun s =>
    match s.role with
    | .hoisted _ => true
    | _ => false

end Machine

end Resumable
