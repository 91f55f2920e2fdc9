import Resumable.Host.Error
import Resumable.Number.Remainder
import Resumable.Operation

/-!
# Operators

The meaning of the operators on values. Integers wrap around; an integer meets a float as a
float; adding anything to a string appends its text.
-/

namespace Resumable

/-- Equality across number types. -/
def valuesEqual (left right : Value) : Bool :=
  match left, right with
  | .int a, .float b => a.toFloat == b
  | .float a, .int b => a == b.toFloat
  | _, _ => left.same right

/-- An operator on integers. -/
def intOp (op : BinaryOp) (a b : Int64) : Except HostError Value :=
  match op with
  | .add => .ok (.int (a + b))
  | .sub => .ok (.int (a - b))
  | .mul => .ok (.int (a * b))
  | .div => if b = 0 then .error .divisionByZero else .ok (.int (a / b))
  | .rem => if b = 0 then .error .divisionByZero else .ok (.int (a % b))
  | .lt => .ok (.bool (decide (a < b)))
  | .le => .ok (.bool (decide (a ≤ b)))
  | .gt => .ok (.bool (decide (b < a)))
  | .ge => .ok (.bool (decide (b ≤ a)))
  | .eq => .ok (.bool (a == b))
  | .ne => .ok (.bool (a != b))
  | .and | .or => .error (.typeMismatch .bool .int)

/-- An operator on floats. -/
def floatOp (op : BinaryOp) (a b : Float) : Except HostError Value :=
  match op with
  | .add => .ok (.float (a + b))
  | .sub => .ok (.float (a - b))
  | .mul => .ok (.float (a * b))
  | .div => .ok (.float (a / b))
  | .rem => .ok (.float (floatRem a b))
  | .lt => .ok (.bool (decide (a < b)))
  | .le => .ok (.bool (decide (a ≤ b)))
  | .gt => .ok (.bool (decide (b < a)))
  | .ge => .ok (.bool (decide (b ≤ a)))
  | .eq => .ok (.bool (a == b))
  | .ne => .ok (.bool (a != b))
  | .and | .or => .error (.typeMismatch .bool .float)

/-- An operator on two booleans. -/
def logicOp (combine : Bool → Bool → Bool) (left right : Value) : Except HostError Value :=
  match left.bool?, right.bool? with
  | some a, some b => .ok (.bool (combine a b))
  | none, _ => .error (.mismatch .bool left)
  | some _, none => .error (.mismatch .bool right)

/-- An operator on two values that are not both integers. -/
def mixedOp (op : BinaryOp) (left right : Value) : Except HostError Value :=
  match left.number?, right.number? with
  | some a, some b => floatOp op a b
  | none, _ => .error (.mismatch .number left)
  | some _, none => .error (.mismatch .number right)

/-- A binary operator on values that have been computed. -/
def binaryOp (op : BinaryOp) (left right : Value) : Except HostError Value :=
  match op, left, right with
  | .eq, _, _ => .ok (.bool (valuesEqual left right))
  | .ne, _, _ => .ok (.bool (!valuesEqual left right))
  | .and, _, _ => logicOp and left right
  | .or, _, _ => logicOp or left right
  | _, .int a, .int b => intOp op a b
  | .add, .str a, _ => .ok (.str (a ++ right.text))
  | _, _, _ => mixedOp op left right

/-- A unary operator. -/
def unaryOp (op : UnaryOp) (value : Value) : Except HostError Value :=
  match op, value with
  | .neg, .int v => .ok (.int (-v))
  | .neg, .float v => .ok (.float (-v))
  | .not, .bool v => .ok (.bool (!v))
  | .neg, _ => .error (.mismatch .number value)
  | .not, _ => .error (.mismatch .bool value)

end Resumable
