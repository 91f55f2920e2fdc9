import Resumable.Proofs.Storage

/-!
# Plain code

Most of a machine is code that the source wrote, with variables moved into slots.  Such code
is *plain*:  it neither writes the state or the status, nor asks for a call back, nor starts a
dispatch.  What it may write and call is a parameter, its *policy*.

## Main definitions

* `Policy`: the slots that may be written and the callees that may be called.
* `Machine.Expr.Plain`, `Machine.Stmt.Plain`, `Machine.PlainBlock`: plain code.
* `CodeKind`: how plain code may leave its procedure.
-/

namespace Resumable

open Machine (SlotId)

/-- What plain code may write and call. -/
structure Policy where
  slots : SlotId → Prop
  targets : CallTarget → Prop

/-- How plain code may leave the procedure it stands in. -/
inductive CodeKind where
  /-- By a return. -/
  | closure
  /-- In no way. -/
  | segment
  /-- By finishing the activation. -/
  | lastSegment
  deriving DecidableEq

namespace Machine

/-- A slot that is written has to be one of those that may be. -/
def Place.Plain (P : Policy) : Place → Prop
  | .slot id => P.slots id
  | .localVar _ | .param _ | .field _ => True

mutual

/-- An expression that calls only what it may. -/
def Expr.Plain (P : Policy) : Expr → Prop
  | .binary _ _ left right => left.Plain P ∧ right.Plain P
  | .unary _ _ operand => operand.Plain P
  | .call _ target args => P.targets target ∧ PlainArgs P args
  | .lambda _ body => PlainBlock P .closure body
  | .int .. | .float .. | .bool .. | .str .. | .unit .. | .localVar .. | .param .. | .field ..
  | .slot .. | .tasksDone .. | .taskValue .. | .cancelRequested .. | .error .. | .absent =>
    True

/-- Arguments that call only what they may. -/
def PlainArgs (P : Policy) : List Expr → Prop
  | [] => True
  | e :: rest => e.Plain P ∧ PlainArgs P rest

/-- A statement that writes and calls only what it may, and leaves only as its kind may. -/
def Stmt.Plain (P : Policy) (kind : CodeKind) : Stmt → Prop
  | .expr _ e | .bind _ _ e => e.Plain P
  | .assign _ target e => target.Plain P ∧ e.Plain P
  | .branch _ cond onTrue onFalse =>
    cond.Plain P ∧ PlainBlock P kind onTrue ∧ PlainBlock P kind onFalse
  | .loop _ cond body => cond.Plain P ∧ PlainBlock P kind body
  | .breakLoop _ | .continueLoop _ => True
  | .ret _ e => kind = .closure ∧ e.Plain P
  | .finish _ status e => kind = .lastSegment ∧ status = .succeeded ∧ e.Plain P
  | .setState .. | .schedule .. | .invoke .. | .returnTask _ | .switch .. | .unresolved _ =>
    False

/-- Statements that are all plain. -/
def PlainBlock (P : Policy) (kind : CodeKind) : List Stmt → Prop
  | [] => True
  | s :: rest => s.Plain P kind ∧ PlainBlock P kind rest

end

/-- A timing whose expressions call only what they may. -/
def Timing.Plain (P : Policy) : Timing → Prop
  | .seconds e | .frames e => e.Plain P
  | .nextFrame | .completion .. => True

/-- A block is plain when its statements are. -/
theorem plainBlock_iff {P : Policy} {kind : CodeKind} {stmts : List Stmt} :
    PlainBlock P kind stmts ↔ ∀ s ∈ stmts, s.Plain P kind := by
  induction stmts with
  | nil => simp [PlainBlock]
  | cons s rest ih => simp only [PlainBlock, ih, List.forall_mem_cons]

end Machine

end Resumable
