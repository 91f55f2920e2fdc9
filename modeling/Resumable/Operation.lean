import Resumable.Name

/-!
# Operators, callees and task conditions

The vocabulary that bound procedures and lowered machines share.
-/

namespace Resumable

/-- The number of a local variable within its procedure. -/
abbrev LocalId := Nat

/-- Binary operators. -/
inductive BinaryOp where
  | add
  | sub
  | mul
  | div
  | rem
  | eq
  | ne
  | lt
  | le
  | gt
  | ge
  | and
  | or
  deriving DecidableEq, Repr

/-- The short word for an operator in listings. -/
def BinaryOp.word : BinaryOp → String
  | .add => "add"
  | .sub => "sub"
  | .mul => "mul"
  | .div => "div"
  | .rem => "rem"
  | .eq => "eq"
  | .ne => "ne"
  | .lt => "lt"
  | .le => "le"
  | .gt => "gt"
  | .ge => "ge"
  | .and => "and"
  | .or => "or"

/-- Unary operators. -/
inductive UnaryOp where
  | neg
  | not
  deriving DecidableEq, Repr

/-- The short word for an operator in listings. -/
def UnaryOp.word : UnaryOp → String
  | .neg => "neg"
  | .not => "not"

/-- The scheduling primitives, recognised by identity and not by spelling. -/
inductive Primitive where
  /-- Completes after a number of seconds. -/
  | delay
  /-- Completes after a number of frames. -/
  | delayFrames
  /-- Completes on the next frame. -/
  | yield
  /-- Completes when all operands have. -/
  | whenAll
  /-- Completes when one operand has. -/
  | whenAny
  deriving DecidableEq, Repr

/-- The spelling of a primitive in source text and messages. -/
def Primitive.word : Primitive → String
  | .delay => "Delay"
  | .delayFrames => "DelayFrames"
  | .yield => "Yield"
  | .whenAll => "WhenAll"
  | .whenAny => "WhenAny"

/-- What a call calls. -/
inductive CallTarget where
  | primitive (which : Primitive)
  /-- A procedure of the same owner. -/
  | procedure (name : Name)
  /-- A function provided by the host. -/
  | host (name : Name)
  deriving DecidableEq, Repr

/-- A callee in listings: its class and its name. -/
def CallTarget.text (names : NameTable) : CallTarget → String
  | .primitive p => "prim " ++ p.word
  | .procedure n => "proc " ++ names.lookup n
  | .host n => "host " ++ names.lookup n

/-- How many of the awaited tasks must be done. -/
inductive JoinMode where
  | all
  | any
  deriving DecidableEq, Repr

/-- The word for a join mode in listings. -/
def JoinMode.word : JoinMode → String
  | .all => "all"
  | .any => "any"

end Resumable
